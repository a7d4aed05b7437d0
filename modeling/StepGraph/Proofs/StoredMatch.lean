import StepGraph.Proofs.Selection

/-!
What a decision leaves in the context. A decision that has candidates assigns the value that stands
for the record that it took, or null for none, to the context and to the extracted data. A decision
without candidates assigns nothing.
-/
namespace StepGraph

open Attempt Work

namespace Store

variable {s s' : Store} {i j : Item} {k k' : String} {es : Entries Item}

theorem layer_of_isObject (h : s.isObject i = true) : ∃ es, s.layer i = .object es := by
  unfold isObject View.isObject at h
  split at h
  · exact ⟨_,‹_›⟩
  · cases h

theorem isObject_of_layer (h : s.layer i = .object es) : s.isObject i = true := by
  simp only [isObject,View.isObject,view,h]

theorem field_congr (h : s'.layer j = s.layer i) (k : String) : s'.field j k = s.field i k := by
  simp only [field,View.field,View.child?,View.null,view,h]

theorem isObject_congr (h : s'.layer j = s.layer i) : s'.isObject j = s.isObject i := by
  simp only [isObject,View.isObject,view,h]

theorem Grows.layer (hg : s.Grows s') (h : s.isObject i = true) : s'.layer i = s.layer i :=
  hg.layer_of_isContainer (isContainer_of_isObject h)

theorem layer_putField (hl : s.layer i = .object es) (k : String) (x : Item) :
    (s.putField i k x).layer i = .object (es.put k x) ∧
      ∀ j, j ≠ i → (s.putField i k x).layer j = s.layer j := by
  obtain ⟨id,rfl,hid⟩ := cell_of_isContainer (by rw [hl]; rfl : (s.layer i).isContainer = true)
  obtain ⟨hlayer,-,hother⟩ := setCell_layer hid (.object (es.put k x))
  have hput : s.putField (.cell id) k x = s.setCell id (.object (es.put k x)) := by
    unfold putField
    rw [hl]
    rfl
  rw [hput]
  refine ⟨hlayer,fun j hj => ?_⟩
  cases j with
  | leaf a => rfl
  | cell n =>
    apply layer_eq_of_cells
    apply hother
    rintro rfl
    exact hj rfl

def putFields (s : Store) (i : Item) (later : Entries Item) : Store :=
  later.foldl (fun s e => s.putField i e.1 e.2) s

theorem layer_putFields (hl : s.layer i = .object es) (later : Entries Item) :
    (s.putFields i later).layer i = .object (es.merge later) ∧
      ∀ j, j ≠ i → (s.putFields i later).layer j = s.layer j := by
  induction later generalizing s es with
  | nil => exact ⟨hl,fun _ _ => rfl⟩
  | cons e rest ih =>
    obtain ⟨hput,hother⟩ := layer_putField hl e.1 e.2
    obtain ⟨hmerged,hrest⟩ := ih hput
    exact ⟨hmerged,fun j hj => (hrest j hj).trans (hother j hj)⟩

variable (h : s.isObject i = true)

include h

theorem field_putField_self (k : String) (x : Item) : (s.putField i k x).field i k = x := by
  obtain ⟨es,hl⟩ := layer_of_isObject h
  rw [field_of_layer (layer_putField hl k x).1,Entries.get?_put_self]
  rfl

theorem field_putField_of_ne (hk : k' ≠ k) (x j : Item) :
    (s.putField i k x).field j k' = s.field j k' := by
  obtain ⟨es,hl⟩ := layer_of_isObject h
  obtain ⟨hput,hother⟩ := layer_putField hl k x
  by_cases hj : j = i
  · subst hj
    rw [field_of_layer hput,field_of_layer hl,Entries.get?_put_of_ne hk]
  · exact field_congr (hother j hj) k'

theorem isObject_putField (k : String) (x j : Item) :
    (s.putField i k x).isObject j = s.isObject j := by
  obtain ⟨es,hl⟩ := layer_of_isObject h
  obtain ⟨hput,hother⟩ := layer_putField hl k x
  by_cases hj : j = i
  · subst hj
    rw [isObject_of_layer hput,h]
  · exact isObject_congr (hother j hj)

/-- An entry that was assigned stays when it is assigned again, wherever that is. -/
theorem field_putField_same {x : Item} (hj : s.field j k = x) :
    (s.putField i k x).field j k = x := by
  obtain ⟨es,hl⟩ := layer_of_isObject h
  by_cases hij : j = i
  · subst hij
    exact field_putField_self h k x
  · exact (field_congr ((layer_putField hl k x).2 j hij) k).trans hj

end Store

namespace Context

variable {s : Store} {c e x : Item} {k : String}

theorem extracted?_eq_some :
    extracted? s c = some e ↔ get s c extractedKey = e ∧ s.isObject e = true := by
  unfold extracted?
  simp only
  split
  · rename_i h
    simp only [Option.some.injEq]
    exact ⟨fun he => ⟨he,he ▸ h⟩,And.left⟩
  · rename_i h
    simp only [reduceCtorEq,false_iff]
    rintro ⟨rfl,he⟩
    exact h he

def stored (s : Store) (c : Item) (k : String) (x : Item) : Store :=
  let s₁ := set s c k x
  match extracted? s₁ c with
  | some e => set s₁ e k x
  | none => s₁

/-- An item stands under a name in the context, and in what was its extracted data before. -/
structure Assigned (before s : Store) (c : Item) (k : String) (x : Item) : Prop where
  context : get s c k = x
  extracted : ∀ e, extracted? before c = some e → extracted? s c = some e ∧ s.field e k = x

variable (hc : s.isObject c = true)

include hc

theorem isObject_stored (k : String) (x j : Item) : (stored s c k x).isObject j = s.isObject j := by
  have hset := Store.isObject_putField hc k x
  unfold stored
  simp only
  split
  · rename_i e he
    obtain ⟨-,he⟩ := extracted?_eq_some.1 he
    exact (Store.isObject_putField he k x j).trans (hset j)
  · exact hset j

theorem assigned_stored (hk : k ≠ extractedKey) (x : Item) :
    Assigned s (stored s c k x) c k x := by
  have hset (e : Item) : extracted? (set s c k x) c = some e ↔ extracted? s c = some e := by
    rw [extracted?_eq_some,extracted?_eq_some]
    unfold get set
    rw [Store.field_putField_of_ne hc hk.symm,Store.isObject_putField hc]
  have hself : (set s c k x).field c k = x := Store.field_putField_self hc k x
  unfold stored
  simp only
  split
  · rename_i e he
    obtain ⟨hentry,hobject⟩ := extracted?_eq_some.1 he
    -- the extracted data may be the context itself, or share it: the second write keeps the first
    refine ⟨Store.field_putField_same hobject hself,fun e' he' => ?_⟩
    obtain rfl : e = e' := Option.some.inj (he.symm.trans ((hset e').2 he'))
    refine ⟨extracted?_eq_some.2 ⟨?_,?_⟩,Store.field_putField_self hobject k x⟩
    · exact (Store.field_putField_of_ne hobject hk.symm x c).trans hentry
    · exact (Store.isObject_putField hobject k x e).trans hobject
  · rename_i hnone
    refine ⟨hself,fun e he => ?_⟩
    rw [(hset e).2 he] at hnone
    cases hnone

omit hc in
theorem extracted?_grows {s' : Store} (hc : s.isObject c = true) (hg : s.Grows s')
    (h : extracted? s c = some e) : extracted? s' c = some e := by
  obtain ⟨hentry,hobject⟩ := extracted?_eq_some.1 h
  refine extracted?_eq_some.2 ⟨?_,?_⟩
  · exact (Store.field_congr (hg.layer hc) extractedKey).trans hentry
  · exact (Store.isObject_congr (hg.layer hobject)).trans hobject

omit hc in
theorem Assigned.grows {before before' s s' : Store} (h : Assigned before' s c k x)
    (hbefore : before.isObject c = true) (hs : s.isObject c = true) (hg : before.Grows before')
    (hg' : s.Grows s') : Assigned before s' c k x where
  context := (Store.field_congr (hg'.layer hs) k).trans h.context
  extracted e he := by
    obtain ⟨he,hx⟩ := h.extracted e (extracted?_grows hbefore hg he)
    refine ⟨extracted?_grows hs hg' he,?_⟩
    exact (Store.field_congr (hg'.layer (extracted?_eq_some.1 he).2) k).trans hx

end Context

namespace Steps

variable {run : Run} {node : Step Item} {config : Value} {l : Lookup} {w w' : World} {o : Outcome}
  {x : Item} {name : String}

theorem exec_storeOutput {s : DecisionSettings} (hname : s.outputName = .text name)
    (hne : name ≠ "") (x : Item) (w : World) : (storeOutput run s x).exec w =
      (.ok (),{ w with store := Context.stored w.store run.context name x }) := by
  have hstore : (Mapping.storeOutput run.context s.outputName x).exec w.store =
      (.ok (),Context.stored w.store run.context name x) := by
    have hset : (Edit.set run.context name x).exec w.store =
      (.ok (),Context.set w.store run.context name x) := rfl
    have hkey : Edit.keyOf (.text name) = .ok name := rfl
    rw [hname]
    unfold Mapping.storeOutput Context.stored
    rw [if_neg (by simp [truthy_text hne]),hkey]
    refine (exec_bind_ok (x := name) rfl _).trans ?_
    refine (exec_bind_ok hset _).trans ?_
    refine (exec_bind_ok (exec_get _) _).trans ?_
    simp only
    cases Context.extracted? (Context.set w.store run.context name x) run.context <;> rfl
  have hedit : (Work.edit (Mapping.storeOutput run.context s.outputName x)).exec w =
      (.ok (),{ w with store := Context.stored w.store run.context name x }) := by
    change (((Mapping.storeOutput run.context s.outputName x).exec w.store).1,
      { w with store := ((Mapping.storeOutput run.context s.outputName x).exec w.store).2 }) = _
    rw [hstore]
  unfold storeOutput Run.noteName
  rw [exec_bind_ok hedit,hname]
  rfl

theorem exec_recordAll {mappings : Value} (hmaps : mappings.truthy = false) (c matched : Item)
    (w : World) : (Work.edit (Mapping.recordAll c matched mappings)).exec w = (.ok (),w) := by
  unfold Mapping.recordAll Value.optionalParts View.optionalParts
  rw [if_neg (by rw [Bool.not_eq_true]; exact hmaps)]
  rfl

theorem Ends.stores {reply : Option (Entries Value)} {record : Option Item} {s : Store}
    (h : Ends run config l w o w' reply record s x) (hl : l.candidates ≠ [])
    (hmaps : (config.field "responseDataMappings").truthy = false) :
    ∃ w₁ w₂, w.store.Grows w₁.store ∧ (storeOutput run l.settings x).exec w₁ = (.ok (),w₂) ∧
      w₂.store.Grows w'.store := by
  have chosen {c : Item} {u u' : World}
      (hx : (choose run config l.settings c).exec u = (.ok x,u')) :
      (storeOutput run l.settings x).exec u = (.ok (),u') := by
    obtain ⟨-,u₁,hstore,hrecord⟩ := choose_ok hx
    rw [exec_recordAll hmaps] at hrecord
    cases hrecord
    exact hstore
  have asked {r : Entries Value} {u : World} (hr : (ask l).exec w = (.ok r,u)) :
      w.store.Grows u.store := by
    have hg := (ask_appendOnly l).grows w
    rw [hr] at hg
    exact hg
  cases h with
  | empty hc hi hw ho => exact absurd hc hl
  | single hc hs hx hw ho => exact ⟨w,_,refl_of Store.Grows w.store,chosen hx,hw.2⟩
  | unmatched ha hr hc hi hw hx hw' ho ht =>
    exact ⟨_,_,trans_of Store.Grows (asked hr) hw.2,hx,hw'.2⟩
  | matched ha hr hc hw hx hw' ho ht =>
    exact ⟨_,_,trans_of Store.Grows (asked hr) hw.2,chosen hx,hw'.2⟩

/-- A decision that completes leaves nothing stale if it had candidates: the value that it shows
stands under the name in the context, and in the extracted data that there was. Without candidates
it leaves every container as it was, whatever stands under the name. -/
theorem aiDecision_assigns (hcontext : w.store.isObject run.context = true)
    (hname : config.field "outputVariableName" = .text name)
    (hne : name ≠ "" ∧ name ≠ Context.extractedKey)
    (hmaps : (config.field "responseDataMappings").truthy = false)
    (hconfig : w.store.read node.config = .ok config)
    (h : (aiDecision run node).exec w = (.ok o,w')) :
    ∃ d : Decision, d.MadeBy run node w o w' ∧
      (d.values ≠ [] → Context.Assigned w.store w'.store run.context name d.value) ∧
      (d.values = [] → w.store.Grows w'.store) := by
  obtain ⟨d,w₁,hran⟩ := aiDecision_ok h
  obtain rfl : config = d.config := Except.ok.inj (hconfig.symm.trans hran.config)
  have hnil : d.lookup.candidates = [] ↔ d.values = [] := by
    obtain ⟨n,hspells⟩ := hran.spelled
    rw [← List.length_eq_zero_iff,hspells.length_eq,List.length_eq_zero_iff]
  refine ⟨d,hran.made,fun hvalues => ?_,fun hvalues => ?_⟩
  · have hcandidates : d.lookup.candidates ≠ [] := fun h => hvalues (hnil.1 h)
    obtain ⟨w₂,w₃,hbefore,hstore,hbehind⟩ := hran.ends.stores hcandidates hmaps
    have houtput : d.lookup.settings.outputName = .text name := by
      rw [hran.found.settings]
      change (d.config.field "outputVariableName").orElse (.text "") = _
      rw [hname]
      exact if_pos (truthy_text hne.1)
    rw [exec_storeOutput houtput hne.1] at hstore
    cases hstore
    have hg := trans_of Store.Grows hran.found.grows hbefore
    have hobject : w₂.store.isObject run.context = true :=
      (Store.isObject_congr (hg.layer hcontext)).trans hcontext
    exact (Context.assigned_stored hobject hne.2 d.value).grows hcontext
      ((Context.isObject_stored hobject name d.value _).trans hobject) hg hbehind
  · have hw := hran.ends.onward (hnil.2 hvalues)
    exact trans_of Store.Grows hran.found.grows hw.2

def customerConfig : Value := .object [("outputVariableName",.text "customer")]

def customerStep : Step Item := { id := "m", type := "ai_decision", config := .cell 2 }

def oldCustomer : World where
  store := ⟨#[.object [("customer",.text "old"),("extractedData",.cell 1)],
    .object [("customer",.text "old")],.object [("outputVariableName",.text "customer")]]⟩
  http := { replies := [.answer { status := 200, reason := "OK", text := "[\"new\"]" }] }

theorem aiDecision_assigns_customer :
    ∃ (o : Outcome) (w' : World) (d : Decision),
      (aiDecision { context := .cell 0 } customerStep).exec oldCustomer = (.ok o,w') ∧
      d.MadeBy { context := .cell 0 } customerStep oldCustomer o w' ∧
      Context.Assigned oldCustomer.store w'.store (.cell 0) "customer" d.value ∧
      (w'.store.read? d.value).bind Value.text? = some "new" := by
  have hok : ((aiDecision { context := .cell 0 } customerStep).exec oldCustomer).1.isOk = true := by
    decide +kernel
  have hvalue : (shown? ((aiDecision { context := .cell 0 } customerStep).exec oldCustomer)
      "matchedValue").bind Value.text? = some "new" := by decide +kernel
  rcases h : (aiDecision { context := .cell 0 } customerStep).exec oldCustomer with ⟨f | o,w'⟩ <;>
    rw [h] at hok hvalue
  · cases hok
  · have hconfig : oldCustomer.store.read customerStep.config = .ok customerConfig := rfl
    obtain ⟨d,hmade,hassigned,-⟩ := aiDecision_assigns (by decide +kernel) rfl (by decide) rfl hconfig h
    rw [(shown?_of_shows hmade.shown).2] at hvalue
    refine ⟨o,w',d,rfl,hmade,hassigned fun hnil => ?_,hvalue⟩
    -- without candidates nothing would be shown
    rw [Decision.value,hmade.missed.2 (.inl hnil)] at hvalue
    cases hvalue

end Steps

end StepGraph
