import StepGraph.Proofs.CheckedReply

/-!
How a decision ends once it has candidates. Nobody is asked where there is nothing to choose from,
and none of the other ends calls anybody but the provider. Each end that completes tells which
record was taken and which value stands for it.
-/
namespace StepGraph

open Attempt Work

/-- What stands at a path below an item; nothing does at a path that is no text. -/
def Store.reached (s : Store) (i : Item) : Value → Item
  | .text p => s.lookup i p
  | _ => .null

theorem Edit.exec_lookup (root : Item) (path : Value) (s : Store) :
    (Edit.lookup root path).exec s = (.ok (s.reached root path),s) := by
  cases path with
  | scalar a => cases a <;> rfl
  | list xs => rfl
  | object es => rfl

namespace Steps

variable {run : Run} {node : Step Item} {config : Value} {l : Lookup} {w w' : World} {o : Outcome}

theorem truthy_text {t : String} (hne : t ≠ "") : (Value.text t).truthy = true := by
  simp [Value.truthy,View.truthy,Value.view,Value.layer,Scalar.truthy,hne]

def DecisionSettings.valueIn (s : DecisionSettings) (store : Store) (matched : Item) : Item :=
  if s.returnPath.truthy then store.reached matched s.returnPath else matched

theorem valueIn_ofConfig (config : Value) (store : Store) (matched : Item) :
    (DecisionSettings.ofConfig config).valueIn store matched =
      if (config.field "returnFieldPath").truthy then
        store.reached matched (config.field "returnFieldPath")
      else matched := by
  have hpath : (DecisionSettings.ofConfig config).returnPath =
      if (config.field "returnFieldPath").truthy then config.field "returnFieldPath"
      else .text "" := rfl
  unfold DecisionSettings.valueIn
  rw [hpath]
  split <;> rfl

def decided (run : Run) (node : Step Item) (config : Value) (l : Lookup) : Work Outcome :=
  match l.candidates with
  | [] => decideNone l
  | [c] =>
    if l.settings.skipsSingle then decideSingle run node config l c
    else decideAsked run node config l
  | _ => decideAsked run node config l

theorem aiDecision_eq (run : Run) (node : Step Item) :
    aiDecision run node = Work.read node.config >>= fun config =>
      lookUp run node config >>= decided run node config := rfl

/-- The provider is asked where there are several candidates, and about a single one if it must not
be taken unseen. -/
def Lookup.Asks (l : Lookup) : Prop :=
  2 ≤ l.candidates.length ∨ l.candidates.length = 1 ∧ l.settings.skipsSingle = false

theorem Lookup.not_asks (h : ¬l.Asks) :
    l.candidates = [] ∨ ∃ c, l.candidates = [c] ∧ l.settings.skipsSingle = true := by
  unfold Asks at h
  rcases hl : l.candidates with _ | ⟨c,_ | ⟨d,rest⟩⟩
  · exact .inl rfl
  · exact .inr ⟨c,rfl,by simpa [hl] using h⟩
  · simp [hl] at h

theorem decided_empty (h : l.candidates = []) (run : Run) (node : Step Item) (config : Value) :
    decided run node config l = decideNone l := by
  unfold decided
  rw [h]

theorem decided_single {c : Item} (h : l.candidates = [c]) (hs : l.settings.skipsSingle = true)
    (run : Run) (node : Step Item) (config : Value) :
    decided run node config l = decideSingle run node config l c := by
  unfold decided
  rw [h]
  exact if_pos hs

theorem decided_asks (h : l.Asks) (run : Run) (node : Step Item) (config : Value) :
    decided run node config l = decideAsked run node config l := by
  unfold Lookup.Asks at h
  unfold decided
  rcases hl : l.candidates with _ | ⟨c,_ | ⟨d,rest⟩⟩
  · simp [hl] at h
  · have hs : l.settings.skipsSingle = false := by simpa [hl] using h
    simp [hs]
  · rfl

theorem noteName_alone (run : Run) (name : Value) : Alone (run.noteName name) := by
  unfold Run.noteName
  split
  · exact Alone.closed.pure _
  · exact Alone.modify fun _ _ => rfl

theorem storeOutput_alone (run : Run) (s : DecisionSettings) (x : Item) :
    Alone (storeOutput run s x) :=
  (Alone.edit _).bind fun _ => noteName_alone run _

theorem choose_alone (run : Run) (config : Value) (s : DecisionSettings) (matched : Item) :
    Alone (choose run config s matched) := by
  unfold choose
  extract_lets rest
  have stored (x : Item) : Alone (rest x) := by
    refine (storeOutput_alone run s x).bind fun _ => (Alone.edit _).bind fun _ => ?_
    exact Alone.closed.pure x
  split
  · exact (Alone.edit _).bind stored
  · exact (Alone.closed.pure _).bind stored

/-- A record that is taken is given its value first; then the value is stored, and then the fields
that are wanted from the record. -/
theorem choose_ok {s : DecisionSettings} {matched x : Item}
    (h : (choose run config s matched).exec w = (.ok x,w')) :
    x = s.valueIn w.store matched ∧ ∃ w₁, (storeOutput run s x).exec w = (.ok (),w₁) ∧
      (Work.edit (Mapping.recordAll run.context matched
        (config.field "responseDataMappings"))).exec w₁ = (.ok (),w') := by
  unfold choose at h
  extract_lets rest at h
  have stored {x' : Item} (h : (rest x').exec w = (.ok x,w')) : x = x' ∧
      ∃ w₁, (storeOutput run s x).exec w = (.ok (),w₁) ∧
        (Work.edit (Mapping.recordAll run.context matched
          (config.field "responseDataMappings"))).exec w₁ = (.ok (),w') := by
    obtain ⟨⟨⟩,w₁,h₁,h⟩ := exec_bind_eq_ok h
    obtain ⟨⟨⟩,w₂,h₂,h⟩ := exec_bind_eq_ok h
    cases h
    exact ⟨rfl,w₁,h₁,h₂⟩
  unfold DecisionSettings.valueIn
  split at h
  · rename_i hp
    obtain ⟨y,w₁,h₁,h⟩ := exec_bind_eq_ok h
    have hlookup : (Work.edit (Edit.lookup matched s.returnPath)).exec w =
        (.ok (w.store.reached matched s.returnPath),w) := by
      change (((Edit.lookup matched s.returnPath).exec w.store).1,
        { w with store := ((Edit.lookup matched s.returnPath).exec w.store).2 }) = _
      rw [Edit.exec_lookup]
    rw [hlookup] at h₁
    cases h₁
    rw [if_pos hp]
    exact stored h
  · rename_i hp
    rw [if_neg hp]
    exact stored h

def Shows (s : Store) (o : Outcome) (record value : Item) : Prop :=
  Entries.get? (s.entries o.output) "matchedRecord" = some record ∧
    Entries.get? (s.entries o.output) "matchedValue" = some value

def shown? (r : Except Fault Outcome × World) (key : String) : Option Value :=
  r.1.toOption.bind fun o => (Entries.get? (r.2.store.entries o.output) key).bind r.2.store.read?

theorem shown?_of_shows {record value : Item} (h : Shows w.store o record value) :
    shown? (.ok o,w) "matchedRecord" = w.store.read? record ∧
      shown? (.ok o,w) "matchedValue" = w.store.read? value := by
  simp [shown?,Except.toOption,h.1,h.2]

def ShowsReply (s : Store) (o : Outcome) (reply : Entries Value) : Prop :=
  ∃ i n, Entries.get? (s.entries o.output) "aiResult" = some i ∧ s.Spells n (.object reply) i

theorem newObject_ok {es : Entries Item} {i : Item} (h : (Work.newObject es).exec w = (.ok i,w')) :
    w'.store.entries i = es ∧ Onward w w' := by
  have hw := Onward.newObject es w
  rw [h] at hw
  obtain ⟨hi,hw'⟩ := Prod.mk.inj h
  cases hi
  cases hw'
  refine ⟨?_,hw⟩
  change Store.entries (w.store.alloc (.object es)).1 (.cell w.store.cells.size) = es
  simp only [Store.entries,Store.layer,Store.alloc_cell,Cell.layer]

theorem plant_ok {v : Value} {i : Item} (h : (Work.plant v).exec w = (.ok i,w')) :
    w'.store.Spells w'.store.cells.size v i ∧ Onward w w' := by
  have hw := Onward.plant v w
  rw [h] at hw
  cases h
  exact ⟨Store.spells_plant _ _,hw⟩

theorem spells_entry {s : Store} {n : Nat} {es : Entries Value} {i : Item} {k : String} {v : Value}
    (h : s.Spells n (.object es) i) (hk : es.get? k = some v) :
    ∃ j m, Entries.get? (s.entries i) k = some j ∧ s.Spells m v j := by
  cases h with
  | @object n id es is lt cell fields =>
    have hentries : s.entries (.cell id) = is := by
      simp only [Store.entries,Store.layer,cell,Cell.layer]
    have hf := fields.get? k
    rw [hk] at hf
    rw [hentries]
    generalize Entries.get? is k = found at hf ⊢
    cases hf with
    | some hj => exact ⟨_,id,rfl,hj⟩

inductive Ends (run : Run) (config : Value) (l : Lookup) (w : World) (o : Outcome) (w' : World) :
    Option (Entries Value) → Option Item → Store → Item → Prop
  | empty (hc : l.candidates = []) (hi : l.settings.insists = false) (hw : Onward w w')
      (ho : Shows w'.store o .null .null) : Ends run config l w o w' none none w.store .null
  | single {c x : Item} {w₁ : World} (hc : l.candidates = [c])
      (hs : l.settings.skipsSingle = true)
      (hx : (choose run config l.settings c).exec w = (.ok x,w₁)) (hw : Onward w₁ w')
      (ho : Shows w'.store o c x) : Ends run config l w o w' none (some c) w.store x
  | unmatched {reply : Entries Value} {w₁ w₂ w₃ : World} (ha : l.Asks)
      (hr : (ask l).exec w = (.ok reply,w₁)) (hc : candidateAt? l.candidates reply = none)
      (hi : l.settings.insists = false) (hw : Onward w₁ w₂)
      (hx : (storeOutput run l.settings .null).exec w₂ = (.ok (),w₃)) (hw' : Onward w₃ w')
      (ho : Shows w'.store o .null .null) (ht : ShowsReply w'.store o reply) :
      Ends run config l w o w' (some reply) none w₂.store .null
  | matched {reply : Entries Value} {c x : Item} {w₁ w₂ w₃ : World} (ha : l.Asks)
      (hr : (ask l).exec w = (.ok reply,w₁)) (hc : candidateAt? l.candidates reply = some c)
      (hw : Onward w₁ w₂) (hx : (choose run config l.settings c).exec w₂ = (.ok x,w₃))
      (hw' : Onward w₃ w') (ho : Shows w'.store o c x) (ht : ShowsReply w'.store o reply) :
      Ends run config l w o w' (some reply) (some c) w₂.store x

theorem decideNone_ok (h : (decideNone l).exec w = (.ok o,w')) :
    l.settings.insists = false ∧ Onward w w' ∧ Shows w'.store o .null .null := by
  unfold decideNone at h
  split at h
  · obtain ⟨⟨⟩,w₁,h₁,-⟩ := exec_bind_eq_ok h
    cases h₁
  · rename_i hi
    obtain ⟨output,w₁,h₁,h⟩ := exec_bind_eq_ok h
    obtain ⟨he,hw⟩ := newObject_ok h₁
    cases h
    refine ⟨by simpa using hi,hw,?_,?_⟩ <;> rw [he] <;> rfl

theorem decideSingle_ok {c : Item} (h : (decideSingle run node config l c).exec w = (.ok o,w')) :
    ∃ x w₁, (choose run config l.settings c).exec w = (.ok x,w₁) ∧ Onward w₁ w' ∧
      Shows w'.store o c x := by
  unfold decideSingle at h
  obtain ⟨x,w₁,hx,h⟩ := exec_bind_eq_ok h
  obtain ⟨name,w₂,hw,h⟩ := (Onward.plant _).ahead h
  obtain ⟨input,w₃,hw,h⟩ := (Onward.plant _).further hw h
  obtain ⟨result,w₄,hw,h⟩ := (Onward.newObject _).further hw h
  obtain ⟨⟨⟩,w₅,hw,h⟩ := (logPhase_onward run node _ _ _ _ _).further hw h
  obtain ⟨output,w₆,h₆,h⟩ := exec_bind_eq_ok h
  obtain ⟨he,hw₆⟩ := newObject_ok h₆
  cases h
  refine ⟨x,w₁,hx,trans_of Onward hw hw₆,?_,?_⟩ <;> rw [he] <;> rfl

theorem acceptUnmatched_ok {input : Item} {reply : Entries Value}
    (h : (acceptUnmatched run node l input reply).exec w = (.ok o,w')) :
    ∃ w₁ w₂, Onward w w₁ ∧ (storeOutput run l.settings .null).exec w₁ = (.ok (),w₂) ∧
      Onward w₂ w' ∧ Shows w'.store o .null .null ∧ ShowsReply w'.store o reply := by
  unfold acceptUnmatched at h
  obtain ⟨shown,w₁,hw,h⟩ := (Onward.plant _).ahead h
  obtain ⟨⟨⟩,w₂,hw,h⟩ := (logPhase_onward run node _ _ _ _ _).further hw h
  obtain ⟨⟨⟩,w₃,hx,h⟩ := exec_bind_eq_ok h
  obtain ⟨parts,w₄,h₄,h⟩ := exec_bind_eq_ok h
  obtain ⟨hparts,hw₄⟩ := plant_ok h₄
  obtain ⟨s,w₅,h₅,h⟩ := exec_bind_eq_ok h
  cases h₅
  obtain ⟨output,w₆,h₆,h⟩ := exec_bind_eq_ok h
  obtain ⟨he,hw₆⟩ := newObject_ok h₆
  cases h
  -- the entries are read back from the tree that was planted, so each is found where it stands
  obtain ⟨record,m,hrecord,hnull⟩ := spells_entry (k := "matchedRecord") hparts rfl
  cases hnull
  obtain ⟨value,m,hvalue,hnull⟩ := spells_entry (k := "matchedValue") hparts rfl
  cases hnull
  obtain ⟨result,m,hresult,hspells⟩ := spells_entry (k := "aiResult") hparts rfl
  refine ⟨w₂,w₃,hw,hx,trans_of Onward hw₄ hw₆,⟨?_,?_⟩,result,m,?_,hspells.grows hw₆.2⟩
  · rw [he]
    exact hrecord
  · rw [he]
    exact hvalue
  · rw [he]
    exact hresult

theorem decideAsked_ok (ha : l.Asks) (h : (decideAsked run node config l).exec w = (.ok o,w')) :
    ∃ reply record s x, Ends run config l w o w' (some reply) record s x := by
  unfold decideAsked at h
  -- looking for the provider changes nothing
  obtain ⟨p,w₁,hp,h⟩ := exec_bind_eq_ok h
  obtain ⟨-,hw⟩ := provider_ok hp
  subst w₁
  obtain ⟨reply,w₁,hr,h⟩ := exec_bind_eq_ok h
  obtain ⟨input,w₂,hw₂,h⟩ := (Onward.plant _).ahead h
  split at h
  · rename_i hc
    obtain ⟨message,w₃,h₃,h⟩ := exec_bind_eq_ok h
    obtain ⟨-,rfl⟩ := Prod.mk.inj h₃
    split at h
    · -- a refusal records its phase and then throws
      obtain ⟨shown,w₄,h₄,h⟩ := exec_bind_eq_ok h
      obtain ⟨⟨⟩,w₅,-,h⟩ := exec_bind_eq_ok h
      cases h
    · rename_i hi
      obtain ⟨w₃,w₄,hw₃,hx,hw₄,ho,ht⟩ := acceptUnmatched_ok h
      exact ⟨reply,none,_,_,.unmatched ha hr hc (by simpa using hi) (trans_of Onward hw₂ hw₃)
        hx hw₄ ho ht⟩
  · rename_i c hc
    obtain ⟨x,w₃,hx,h⟩ := exec_bind_eq_ok h
    obtain ⟨told,w₄,h₄,h⟩ := exec_bind_eq_ok h
    obtain ⟨hspells,hw₄⟩ := plant_ok h₄
    obtain ⟨name,w₅,hw,h⟩ := (Onward.plant _).ahead h
    obtain ⟨found,w₆,hw,h⟩ := (Onward.newObject _).further hw h
    obtain ⟨⟨⟩,w₇,hw,h⟩ := (logPhase_onward run node _ _ _ _ _).further hw h
    obtain ⟨output,w₈,h₈,h⟩ := exec_bind_eq_ok h
    obtain ⟨he,hw₈⟩ := newObject_ok h₈
    cases h
    have hbehind : Onward w₄ w' := trans_of Onward hw hw₈
    refine ⟨reply,some c,_,x,.matched ha hr hc hw₂ hx (trans_of Onward hw₄ hbehind) ⟨?_,?_⟩
      ⟨told,_,?_,hspells.grows hbehind.2⟩⟩
    all_goals
      rw [he]
      rfl

theorem decided_ok (h : (decided run node config l).exec w = (.ok o,w')) :
    ∃ reply record s x, Ends run config l w o w' reply record s x := by
  by_cases ha : l.Asks
  · rw [decided_asks ha] at h
    obtain ⟨reply,record,s,x,hends⟩ := decideAsked_ok ha h
    exact ⟨some reply,record,s,x,hends⟩
  · rcases Lookup.not_asks ha with hc | ⟨c,hc,hs⟩
    · rw [decided_empty hc] at h
      obtain ⟨hi,hw,ho⟩ := decideNone_ok h
      exact ⟨none,none,_,_,.empty hc hi hw ho⟩
    · rw [decided_single hc hs] at h
      obtain ⟨x,w₁,hx,hw,ho⟩ := decideSingle_ok h
      exact ⟨none,some c,_,x,.single hc hs hx hw ho⟩

/-- The record that is taken: the first candidate, or the one at the place that a reply names if
there is such a place. -/
def Lookup.taken? (l : Lookup) : Option (Entries Value) → Option Item
  | none => l.candidates.head?
  | some r =>
    match Entries.get? r "matchIndex" with
    | some (.int i) => if 0 ≤ i ∧ i < l.candidates.length then l.candidates[i.toNat]? else none
    | _ => none

theorem candidateAt?_eq (l : Lookup) (r : Entries Value) :
    candidateAt? l.candidates r = l.taken? (some r) := by
  unfold candidateAt? Lookup.taken?
  dsimp only
  generalize Entries.get? r "matchIndex" = place
  rcases place with _ | (a | xs | es)
  · rfl
  · cases a with
    | int i =>
      dsimp only
      by_cases hi : i < 0
      · rw [if_pos hi,if_neg (by omega)]
      · rw [if_neg hi]
        split
        · rfl
        · rw [List.getElem?_eq_none_iff]
          omega
    | _ => rfl
  · rfl
  · rfl

namespace Ends

variable {reply : Option (Entries Value)} {record : Option Item} {s : Store} {x : Item}
  {values : List Value} {n : Nat}

theorem asks (h : Ends run config l w o w' reply record s x) : reply.isSome = true ↔ l.Asks := by
  cases h with
  | empty hc hi hw ho => simp [Lookup.Asks,hc]
  | single hc hs hx hw ho => simp [Lookup.Asks,hc,hs]
  | unmatched ha hr hc hi hw hx hw' ho ht => simpa using ha
  | matched ha hr hc hw hx hw' ho ht => simpa using ha

theorem asked (h : Ends run config l w o w' reply record s x) :
    ∀ r, reply = some r → ∃ w₁, (ask l).exec w = (.ok r,w₁) := by
  rintro r rfl
  cases h with
  | unmatched ha hr hc hi hw hx hw' ho ht => exact ⟨_,hr⟩
  | matched ha hr hc hw hx hw' ho ht => exact ⟨_,hr⟩

theorem shows (h : Ends run config l w o w' reply record s x) :
    Shows w'.store o (.ofOption record) x := by
  cases h with
  | empty hc hi hw ho => exact ho
  | single hc hs hx hw ho => exact ho
  | unmatched ha hr hc hi hw hx hw' ho ht => exact ho
  | matched ha hr hc hw hx hw' ho ht => exact ho

theorem onward (h : Ends run config l w o w' reply record s x) (hc : l.candidates = []) :
    Onward w w' := by
  cases h with
  | empty hc' hi hw ho => exact hw
  | single hc' hs hx hw ho => simp [hc] at hc'
  | unmatched ha hr hc' hi hw hx hw' ho ht => simp [Lookup.Asks,hc] at ha
  | matched ha hr hc' hw hx hw' ho ht => simp [Lookup.Asks,hc] at ha

theorem value (h : Ends run config l w o w' reply record s x) :
    x = (record.map (l.settings.valueIn s)).getD .null := by
  cases h with
  | empty hc hi hw ho => rfl
  | single hc hs hx hw ho => exact (choose_ok hx).1
  | unmatched ha hr hc hi hw hx hw' ho ht => rfl
  | matched ha hr hc hw hx hw' ho ht => exact (choose_ok hx).1

theorem record_eq (h : Ends run config l w o w' reply record s x) : record = l.taken? reply := by
  cases h with
  | empty hc hi hw ho => simp [Lookup.taken?,hc]
  | single hc hs hx hw ho => simp [Lookup.taken?,hc]
  | unmatched ha hr hc hi hw hx hw' ho ht => exact hc.symm.trans (candidateAt?_eq l _)
  | matched ha hr hc hw hx hw' ho ht => exact hc.symm.trans (candidateAt?_eq l _)

theorem tells (h : Ends run config l w o w' reply record s x) :
    ∀ r, reply = some r → ShowsReply w'.store o r := by
  rintro r rfl
  cases h with
  | unmatched ha hr hc hi hw hx hw' ho ht => exact ht
  | matched ha hr hc hw hx hw' ho ht => exact ht

theorem insists (h : Ends run config l w o w' reply record s x) (hi : l.settings.insists = true) :
    record ≠ none := by
  cases h with
  | empty hc hi' hw ho => simp [hi] at hi'
  | single hc hs hx hw ho => simp
  | unmatched ha hr hc hi' hw hx hw' ho ht => simp [hi] at hi'
  | matched ha hr hc hw hx hw' ho ht => simp

section Asked

variable (hl : List.Forall₂ (fun i v => w.store.Spells n v i) l.candidates values)

include hl

theorem replied (h : Ends run config l w o w' reply record s x) :
    ∀ r, reply = some r → Replied w values r := by
  rintro r rfl
  cases h with
  | unmatched ha hr hc hi hw hx hw' ho ht => exact (ask_ok hl hr).2.2
  | matched ha hr hc hw hx hw' ho ht => exact (ask_ok hl hr).2.2

theorem grows (h : Ends run config l w o w' reply record s x) : w.store.Grows s := by
  cases h with
  | empty hc hi hw ho => exact refl_of Store.Grows w.store
  | single hc hs hx hw ho => exact refl_of Store.Grows w.store
  | unmatched ha hr hc hi hw hx hw' ho ht => exact (ask_ok hl hr).2.1 ▸ hw.2
  | matched ha hr hc hw hx hw' ho ht => exact (ask_ok hl hr).2.1 ▸ hw.2

theorem calls (h : Ends run config l w o w' reply record s x) : ∃ question, w'.calls = w.calls ++
    if reply.isSome then [.ai [Ai.textPart question] Ai.defaultTemperature Ai.defaultMaxTokens]
    else [] := by
  cases h with
  | empty hc hi hw ho => exact ⟨"",by simp [hw.calls]⟩
  | single hc hs hx hw ho => exact ⟨"",by simp [hw.calls,(choose_alone _ _ _ _).calls hx]⟩
  | unmatched ha hr hc hi hw hx hw' ho ht =>
    obtain ⟨⟨question,-,hq⟩,-,-⟩ := ask_ok hl hr
    exact ⟨question,by simp [hw'.calls,(storeOutput_alone _ _ _).calls hx,hw.calls,hq]⟩
  | matched ha hr hc hw hx hw' ho ht =>
    obtain ⟨⟨question,-,hq⟩,-,-⟩ := ask_ok hl hr
    exact ⟨question,by simp [hw'.calls,(choose_alone _ _ _ _).calls hx,hw.calls,hq]⟩

end Asked

end Ends

theorem decided_unasked (ha : ¬l.Asks) (run : Run) (node : Step Item) (config : Value) :
    Unasked (decided run node config l) := by
  refine Alone.unasked ?_
  rcases Lookup.not_asks ha with hc | ⟨c,hc,hs⟩
  · rw [decided_empty hc]
    refine Alone.closed.guard (Alone.throw _) fun _ => (Alone.newObject _).bind fun _ => ?_
    exact Alone.closed.pure _
  · rw [decided_single hc hs]
    refine (choose_alone run config l.settings c).bind fun x => (Alone.plant _).bind fun name => ?_
    refine (Alone.plant _).bind fun input => (Alone.newObject _).bind fun result => ?_
    refine (Alone.logPhase _ _ _ _ _ _ _).bind fun _ => (Alone.newObject _).bind fun _ => ?_
    exact Alone.closed.pure _

end Steps

end StepGraph
