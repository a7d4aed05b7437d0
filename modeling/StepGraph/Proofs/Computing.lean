import StepGraph.Proofs.EachRecord
import StepGraph.Proofs.FunctionFaults
import StepGraph.Proofs.Keys

/-!
Computing the fields of a payload, with a provider that is asked for addresses. Where the documents
of the functions are sound and no mapping writes below a container that an earlier one passed on,
every record stays a tree and every document stays as it is, so all that stops a function is passed
over.
-/
namespace StepGraph

open Attempt Store

variable {α β : Type}

def AiReply.Shallow : AiReply → Prop
  | .completion s => Json.parse (Completion.withoutFences s) ≠ .error .tooDeep
  | .failure _ => True

def World.Legible (w : World) : Prop :=
  ∀ p, w.ai = some p → ∀ reply ∈ p.script.replies, reply.Shallow

theorem Script.next_of_forall {ρ : Type} {Q : ρ → Prop} {s : Script ρ} {d : ρ} (hd : Q d)
    (h : ∀ r ∈ s.replies, Q r) : Q (s.next d).1 ∧ ∀ r ∈ (s.next d).2.replies, Q r := by
  obtain ⟨replies⟩ := s
  cases replies with
  | nil => exact ⟨hd,h⟩
  | cons r rest =>
    obtain ⟨hr,hrest⟩ := List.forall_mem_cons.1 h
    cases rest with
    | nil => exact ⟨hr,h⟩
    | cons r' rest => exact ⟨hr,hrest⟩

/-- A program stops with a fault that is passed over, or comes to a result and a world of which a
condition holds. -/
def Work.ForgivingOr (p : Work α) (w : World) (P : α → World → Prop) : Prop :=
  Forgiving (p.exec w).1 ∧ ∀ x w', p.exec w = (.ok x,w') → P x w'

namespace Work.ForgivingOr

variable {p : Work α} {w : World} {P : α → World → Prop} {Q : β → World → Prop}

theorem bind {k : α → Work β} (h : ForgivingOr p w P) (hk : ∀ x w', P x w' → ForgivingOr (k x) w' Q) :
    ForgivingOr (p >>= k) w Q := by
  obtain ⟨hf,hP⟩ := h
  unfold ForgivingOr
  rw [exec_bind]
  rcases hp : p.exec w with ⟨e | x,w'⟩ <;> rw [hp] at hf
  · exact ⟨.error (hf e rfl),fun x w' he => by cases he⟩
  · exact hk x w' (hP x w' hp)

theorem pure {x : α} (h : P x w) : ForgivingOr (Pure.pure x) w P :=
  ⟨Forgiving.ok x,fun y w' he => by cases he; exact h⟩

theorem mono {P' : α → World → Prop} (h : ForgivingOr p w P) (hP : ∀ x w', P x w' → P' x w') :
    ForgivingOr p w P' := ⟨h.1,fun x w' he => hP x w' (h.2 x w' he)⟩

theorem of_bind {r : Except Fault α} {k : α → Work β} (h : Forgiving r)
    (hk : ∀ x, r = .ok x → ForgivingOr (k x) w Q) : ForgivingOr (Work.of r >>= k) w Q := by
  cases r with
  | error f => exact ⟨.error (h f rfl),fun x w' he => by cases he⟩
  | ok x => exact hk x rfl

theorem store {k : Store → Work α} (h : ForgivingOr (k w.store) w P) :
    ForgivingOr (Work.store >>= k) w P := h

theorem scope {c : Item} {k : Scope → Work α} (h : ForgivingOr (k (Scope.ofItem w.store c)) w P) :
    ForgivingOr (Work.scope c >>= k) w P := h

theorem database {k : Database → Work α} (h : ForgivingOr (k w.db) w P) :
    ForgivingOr (Work.database >>= k) w P := h

theorem of_exec {p : Work α} {x : α} {w' : World} (h : p.exec w = (.ok x,w')) (hP : P x w') :
    ForgivingOr p w P := by
  unfold ForgivingOr
  rw [h]
  exact ⟨.ok x,fun y w'' he => by cases he; exact hP⟩

theorem of_endsLike {γ : Type} {r : Except Fault γ} {R : α → Store → γ → Prop}
    (h : Work.EndsLike p w r R)
    (hr : Forgiving r) :
    ForgivingOr p w fun x w' => ∃ s' y, r = .ok y ∧ w' = { w with store := s' } ∧ R x s' y := by
  cases r with
  | error f =>
    have hf : (p.exec w).1 = .error f := h
    unfold ForgivingOr
    rw [hf]
    refine ⟨.error (hr f rfl),fun x w' he => ?_⟩
    rw [he] at hf
    cases hf
  | ok y =>
    obtain ⟨x,s',hexec,hR⟩ := h
    unfold ForgivingOr
    rw [hexec]
    refine ⟨.ok x,fun x' w' he => ?_⟩
    cases he
    exact ⟨s',y,rfl,rfl,hR⟩

end Work.ForgivingOr

/-- A program that leaves the store as it is, and stops with faults that are passed over as long as
no completion nests too deep. -/
def Work.ForgivingIfLegible (p : Work α) : Prop :=
  ∀ w : World, w.Legible →
    (p.exec w).2.store = w.store ∧ (p.exec w).2.Legible ∧ Forgiving (p.exec w).1

namespace Work.ForgivingIfLegible

theorem closed : Closed ForgivingIfLegible where
  pure x w hw := ⟨rfl,hw,Forgiving.ok x⟩
  bind hp hf w hw := by
    obtain ⟨hs,hl,hr⟩ := hp w hw
    rw [exec_bind]
    rcases he : Attempt.exec _ w with ⟨e | x,w'⟩ <;> rw [he] at hs hl hr
    · exact ⟨hs,hl,.error (hr e rfl)⟩
    · obtain ⟨hs',hl',hr'⟩ := hf x w' hl
      exact ⟨hs'.trans hs,hl',hr'⟩

theorem of {r : Except Fault α} (h : Forgiving r) : ForgivingIfLegible (Work.of r) :=
  fun _ hw => ⟨rfl,hw,h⟩

theorem get_bind {k : World → Work α} (h : ∀ w, ForgivingIfLegible (k w)) :
    ForgivingIfLegible (get >>= k) :=
  fun w hw => h w w hw

theorem retry (again : Fault → Bool) {body : Work α} (h : ForgivingIfLegible body) (more : Nat) :
    ForgivingIfLegible (Attempt.retry again body more) := by
  induction more with
  | zero => exact h
  | succ more ih =>
    intro w hw
    obtain ⟨hs,hl,hr⟩ := h w hw
    rw [exec_retry]
    rcases he : body.exec w with ⟨f | x,w'⟩ <;> rw [he] at hs hl hr
    · simp only
      split
      · obtain ⟨hs',hl',hr'⟩ := ih w' hl
        exact ⟨hs'.trans hs,hl',hr'⟩
      · exact ⟨hs,hl,hr⟩
    · exact ⟨hs,hl,hr⟩

theorem forgivingOr {p : Work α} {w : World} (h : ForgivingIfLegible p) (hw : w.Legible) :
    ForgivingOr p w fun _ w' => w'.store = w.store ∧ w'.Legible := by
  obtain ⟨hs,hl,hr⟩ := h w hw
  refine ⟨hr,fun x w' he => ?_⟩
  rw [he] at hs hl
  exact ⟨hs,hl⟩

end Work.ForgivingIfLegible

namespace FieldFunction

open Work

variable {s : Store} {P : Nat → Prop} {functions : Library} {docs : Documents} {w : World}
  {attempts : Int} {mapping : Value} {mappings : List Value} {id : Nat}
  {es : List (String × Owned)} {os : List Owned}

theorem read_forgiving {text : String} (h : AiReply.Shallow (.completion text)) (output : Value) :
    Forgiving (Completion.read text output) := by
  unfold AiReply.Shallow at h
  unfold Completion.read
  cases hp : Json.parse (Completion.withoutFences text) with
  | ok v => exact .ok v
  | error f =>
    cases f with
    | tooDeep => exact absurd hp h
    | _ => exact .error rfl

theorem emptyCompletion_shallow : Ai.emptyCompletion.Shallow := by
  intro h
  have told : (Json.parse (Completion.withoutFences "\x7b\x7d")).toOption.isSome = true := by
    decide +kernel
  rw [h] at told
  cases told

theorem complete_cases (parts : List Value) (t : Float) (m : Int) (hw : w.Legible) :
    ∃ w' : World, w'.store = w.store ∧ w'.Legible ∧
      ((∃ f, (Ai.complete parts t m).exec w = (.error f,w') ∧ f.isForgiven = true) ∨
        ∃ text, (Ai.complete parts t m).exec w = (.ok text,w') ∧
          AiReply.Shallow (.completion text)) := by
  unfold Ai.complete
  cases hai : w.ai with
  | none =>
    have hprovider : Ai.provider.exec w = (.error Collaborator.ai.absent,w) := by
      unfold Ai.provider
      rw [exec_bind_ok (exec_get w),hai]
      rfl
    exact ⟨w,rfl,hw,.inl ⟨_,exec_bind_error hprovider _,rfl⟩⟩
  | some p =>
    have hprovider : Ai.provider.exec w = (.ok p,w) := by
      unfold Ai.provider
      rw [exec_bind_ok (exec_get w),hai]
      rfl
    rw [exec_bind_ok hprovider]
    have hnext := Script.next_of_forall (d := Ai.emptyCompletion) emptyCompletion_shallow (hw p hai)
    revert hnext
    rcases p.script.next Ai.emptyCompletion with ⟨reply,rest⟩
    rintro ⟨hreply,hrest⟩
    refine ⟨{ w with calls := w.calls ++ [.ai parts t m],ai := some { p with script := rest } },
      rfl,?_,?_⟩
    · rintro _ ⟨⟩
      exact hrest
    · cases reply with
      | failure message => exact .inl ⟨_,rfl,rfl⟩
      | completion text => exact .inr ⟨text,rfl,hreply⟩

theorem ask_forgivingIfLegible (prompt : String) : ForgivingIfLegible (askOf completed prompt) := by
  intro w hw
  obtain ⟨w',hs,hl,⟨f,he,hf⟩ | ⟨text,he,ht⟩⟩ :=
    complete_cases [Ai.textPart prompt] 0 lookupTokens hw
  · unfold askOf completed
    rw [exec_bind_error he]
    exact ⟨hs,hl,.error hf⟩
  · unfold askOf completed
    rw [exec_bind_ok he]
    obtain ⟨hs',hl',hr⟩ := ForgivingIfLegible.of (read_forgiving ht .null) w' hl
    exact ⟨hs'.trans hs,hl',hr⟩

theorem lookup_forgivingIfLegible (attempts : Int) (logic record : Value) :
    ForgivingIfLegible (lookup Value.access attempts logic (Scope.ofValue record)) := by
  refine ForgivingIfLegible.get_bind fun w => ?_
  split
  · exact ForgivingIfLegible.closed.pure _
  · unfold lookupOf
    refine ForgivingIfLegible.closed.bind (.of address_forgiving) fun address => ?_
    split
    · exact ForgivingIfLegible.closed.pure _
    · refine ForgivingIfLegible.closed.bind (.of wanted_forgiving) fun kind => ?_
      refine ForgivingIfLegible.closed.bind (.retry _ (ask_forgivingIfLegible _) _) fun reply => ?_
      simp only
      split
      · exact ForgivingIfLegible.closed.pure _
      · exact ForgivingIfLegible.closed.bind (.of (Forgiving.asText _)) fun _ =>
          ForgivingIfLegible.closed.pure _

def Uses (docs : Documents) (mapping logic : Value) : Prop :=
  docs.find (mapping.field "functionId") = .ok (some logic)

/-- A mapping that names its field by a text, with a sound function. It looks addresses up only
where this is said, and so it is with comparing by order; numbers are then in the range of
doubles. -/
structure SoundMapping (docs : Documents) (looks ordered : Prop) (mapping : Value) : Prop where
  object : mapping.isObject = true
  name : (mapping.field "fieldName").truthy = true → (mapping.field "fieldName").isText = true
  sound : ∀ logic, Uses docs mapping logic → Sound logic
  looks : ∀ logic, Uses docs mapping logic → named? logic = some lookupName → looks
  compares : ∀ logic, Uses docs mapping logic → Compares logic → ordered
  moderate : ordered → ∀ logic, Uses docs mapping logic → logic.Moderate

/-- A function evaluated in the store has what it has among trees, or a text. -/
theorem evaluateAny_forgivingOr (hP : w.store.Region P) {doc record : Item} {logic tree : Value}
    {looks : Prop} (hd : w.store.TellsIn P doc logic) (hr : w.store.Tells record tree)
    (hl : looks → w.Legible) (hs : Sound logic) (hlooks : named? logic = some lookupName → looks)
    (hm : Compares logic → tree.Moderate ∧ logic.Moderate) :
    ForgivingOr (evaluateAny w.store.access attempts doc (Scope.ofItem w.store record)) w fun r w' =>
      w'.store = w.store ∧ (looks → w'.Legible) ∧ ∃ t, Result.Rel (w.store.TellsIn P) r t ∧
        ((∃ s, t = .text s) ∨ evaluate Value.access logic (Scope.ofValue tree) = .ok t) := by
  have mirrors := tellsIn_mirrors hP.encloses
  have hscope : Scope.ofItem w.store record = Scope.ofValue tree := (tells_mirrors w.store).scope hr
  have hkind : kind? w.store.access doc = .ok (named? logic) :=
    (kind?_eq mirrors hd).trans (kind?_eq_named hs.object)
  have hlookup : lookup w.store.access attempts doc (Scope.ofValue tree) =
      lookup Value.access attempts logic (Scope.ofValue tree) := by
    unfold lookup lookupOf
    rw [address_eq mirrors hd,wanted_eq mirrors hd]
  unfold evaluateAny
  rw [hscope,hkind,hlookup]
  change ForgivingOr (if named? logic == some lookupName then _ else _) w _
  split
  · rename_i hname
    have forgiving :=
      (lookup_forgivingIfLegible attempts logic tree).forgivingOr (hl (hlooks (eq_of_beq hname)))
    refine forgiving.bind fun found w' ⟨hstore,hlegible⟩ => ?_
    cases found with
    | some t => exact .pure ⟨hstore,fun _ => hlegible,_,.text t,.inl ⟨t,rfl⟩⟩
    | none =>
      refine .pure ⟨hstore,fun _ => hlegible,_,.part (mirrors.leaf .null),.inr ?_⟩
      unfold evaluate
      rw [kind?_eq_named hs.object,eq_of_beq hname]
      rfl
  · have hevaluate : Fault.Rel (Result.Rel (w.store.TellsIn P))
        (evaluate w.store.access doc (Scope.ofValue tree))
        (evaluate Value.access logic (Scope.ofValue tree)) := evaluate_rel mirrors hd
    refine (ForgivingOr.of_endsLike (.of hevaluate) (evaluate_forgiving hs hm)).mono ?_
    rintro r _ ⟨s',t,ht,rfl,hs',hrel⟩
    exact ⟨hs',hl,t,hrel,.inr ht⟩

theorem kept?_of {T : Value → Prop} (htext : ∀ s, T (.text s)) {t : Result Value}
    (ht : PassesOn T (.ok t)) {v : Value} (h : t.kept? = some v) : T v := by
  have nonempty {s : String} (h : (if s.isEmpty then none else some (Value.text s)) = some v) :
      T v := by
    split at h <;> cases h
    exact htext s
  unfold Result.kept? at h
  split at h
  · exact nonempty h
  · cases h
  · exact nonempty h
  · cases h
    exact ht _ rfl

theorem computed_forgivingOr (hP : w.store.Region P) (hd : LibraryTells w.store P functions docs)
    {looks ordered : Prop} (hl : looks → w.Legible) {record : Item} {tree : Value}
    (ht : w.store.Tells record tree) (hm : SoundMapping docs looks ordered mapping)
    (hmoderate : ordered → tree.Moderate) :
    ForgivingOr (do
        let found ← Work.of (functions.find (← Work.of (mapping.member "functionId")))
        computed attempts found record mapping) w fun o w' =>
      w'.store = w.store ∧ (looks → w'.Legible) ∧ ∃ p, Option.Rel (w.store.TellsIn P) o p ∧
        ∀ v, p = some v → (mapping.field "fieldName").isText = true ∧
          (v.layer.isContainer = true → Shares docs mapping) ∧ (ordered → v.Moderate) := by
  rw [member_eq hm.object]
  have none : ForgivingOr (Pure.pure none) w fun (o : Option Item) w' =>
      w'.store = w.store ∧ (looks → w'.Legible) ∧ ∃ p, Option.Rel (w.store.TellsIn P) o p ∧
        ∀ v, p = some v → (mapping.field "fieldName").isText = true ∧
          (v.layer.isContainer = true → Shares docs mapping) ∧ (ordered → v.Moderate) :=
    .pure ⟨rfl,hl,Option.none,.none,fun v hv => by cases hv⟩
  have hfind := hd.find (mapping.field "functionId")
  have hfaults : Forgiving (functions.find (mapping.field "functionId")) := by
    unfold Library.find
    split <;> first | exact .ok _ | exact .error rfl
  refine ForgivingOr.of_bind (.ok _) fun key hkey => ?_
  cases hkey
  refine ForgivingOr.of_bind hfaults fun found hfound => ?_
  rw [hfound] at hfind
  generalize huses : docs.find (mapping.field "functionId") = found' at hfind
  obtain ⟨hfound⟩ := hfind
  unfold computed
  refine .store ?_
  cases hfound with
  | none => exact none
  | @some doc logic h =>
    obtain ⟨-,htells⟩ := h
    have htruthy : w.store.view.truthy doc = logic.truthy := (tells_mirrors _).truthy htells.2
    cases ht' : logic.truthy with
    | false =>
      simp only [Option.filter,htruthy,ht',Bool.false_eq_true,if_false]
      exact none
    | true =>
      simp only [Option.filter,htruthy,ht',if_true]
      split
      · exact none
      · rename_i hname
        have hname : (mapping.field "fieldName").truthy = true := by simpa using hname
        refine .scope ?_
        have hsizes (hc : Compares logic) : tree.Moderate ∧ logic.Moderate :=
          have ho := hm.compares logic huses hc
          ⟨hmoderate ho,hm.moderate ho logic huses⟩
        refine (evaluateAny_forgivingOr hP htells ht hl (hm.sound logic huses) (hm.looks logic huses)
          hsizes).bind ?_
        rintro result w' ⟨hstore,hlegible,t,hrel,hresult⟩
        refine .pure ⟨hstore,hlegible,t.kept?,written?_rel hrel,fun v hv => ⟨hm.name hname,?_,?_⟩⟩
        · -- A looked up address is a text, so a container comes from evaluating the document.
          intro hcontainer
          refine ⟨tree,v,?_,hcontainer⟩
          have hevaluate : evaluate Value.access logic (Scope.ofValue tree) = .ok t := by
            refine hresult.resolve_left ?_
            rintro ⟨s,rfl⟩
            have hleaf : v.layer.isContainer = false :=
              kept?_of (T := fun v => v.layer.isContainer = false) (fun _ => rfl) (.text s) hv
            rw [hleaf] at hcontainer
            cases hcontainer
          unfold valueFor
          rw [member_eq hm.object]
          change (docs.find (mapping.field "functionId") >>= _) = _
          rw [huses]
          simp only [bind,Except.bind,Option.filter,ht',hname,hevaluate,hv,if_true,Bool.not_true,
            Bool.false_eq_true,if_false,pure,Except.pure]
        · intro ho
          have hpasses : PassesOn Value.Moderate (.ok t) := by
            rcases hresult with ⟨s,rfl⟩ | ht
            · exact .text s
            · rw [← ht]
              exact evaluate_passesOn Value.moderate_hereditary (hm.moderate ho logic huses)
          exact kept?_of (fun s => .scalar trivial) hpasses hv

theorem moderate_put {es : Entries Value} {k : String} {x : Value} (hx : x.Moderate)
    (h : (Value.object es).Moderate) : (Value.object (es.put k x)).Moderate := by
  refine .object fun y hy => ?_
  obtain ⟨e,he,rfl⟩ := List.mem_map.1 hy
  rcases Entries.mem_put e he with he | rfl
  · exact Value.moderate_hereditary.below _ h _ (List.mem_map_of_mem he)
  · exact hx

theorem fanOut_object (path : List String) (x : Value) (es : Entries Value) :
    ∃ fs, Value.fanOut path (.object es) x = (.object fs,none) ∧
      (x.Moderate → (Value.object es).Moderate → (Value.object fs).Moderate) := by
  induction path generalizing es with
  | nil => exact ⟨es,rfl,fun _ h => h⟩
  | cons part rest ih =>
    cases rest with
    | nil => exact ⟨es.put part x,rfl,moderate_put⟩
    | cons next rest =>
      have below {y : Value} (hy : Entries.get? es part = some y) (h : (Value.object es).Moderate) :
          y.Moderate := Value.moderate_hereditary.below _ h y (Entries.get?_below hy)
      unfold Value.fanOut
      simp only
      split
      · rename_i items hitems
        refine ⟨_,rfl,fun hx h => moderate_put (.list fun y hy => ?_) h⟩
        obtain ⟨item,hitem,rfl⟩ := List.mem_map.1 hy
        have hmoderate : item.Moderate :=
          Value.moderate_hereditary.below _ (below hitems h) item hitem
        cases item with
        | object fs =>
          obtain ⟨gs,hgs,hm⟩ := ih fs
          change (Value.fanOut _ _ _).1.Moderate
          rw [hgs]
          exact hm hx hmoderate
        | _ => exact hmoderate
      · rename_i fs hfs
        obtain ⟨gs,hgs,hm⟩ := ih fs
        rw [hgs]
        exact ⟨_,rfl,fun hx h => moderate_put (hm hx (below hfs h)) h⟩
      · obtain ⟨gs,hgs,hm⟩ := ih []
        rw [hgs]
        exact ⟨_,rfl,fun hx h => moderate_put (hm hx (.object (by simp))) h⟩

theorem writeField_forgivingOr {x : Item} {v path : Value} (hv : w.store.TellsIn P x v)
    (hpath : path.isText = true) (h : Owned.Held P w.store [.object id es])
    (hc : ∀ p, path = .text p → Owned.Clear (Value.fieldPlaces p) (.object id es)) :
    ForgivingOr (writeField (.cell id) path x) w fun _ w' => w'.ai = w.ai ∧ ∃ es',
      Owned.Update P w.store [.object id es] w'.store [.object id es'] ∧
      (v.Moderate → (Owned.object id es).tree.Moderate → (Owned.object id es').tree.Moderate) ∧
      ∀ further, (∀ p, path = .text p → Owned.Beneath (Value.fieldPlaces p) further →
          v.layer.isContainer = false) →
        Owned.Clear further (.object id es) → Owned.Clear further (.object id es') := by
  have hends := withField_endsLike hv path h hc
  obtain ⟨p,rfl⟩ : ∃ p, path = .text p := by
    cases path with
    | scalar a => cases a <;> first | exact ⟨_,rfl⟩ | cases hpath
    | list xs => cases hpath
    | object es => cases hpath
  obtain ⟨fs,hfs,hm⟩ := fanOut_object (Value.fieldPlaces p) v (es.map fun e => (e.1,e.2.tree))
  have hwritten : withField (Owned.object id es).tree (.text p) v = .ok (.object fs) := by
    rw [Owned.tree]
    simp only [withField,Value.setField,hfs]
  rw [hwritten] at hends
  refine (ForgivingOr.of_endsLike hends (.ok _)).mono ?_
  rintro _ _ ⟨s',t,ht,rfl,es',htree,hupdate,hclear⟩
  cases ht
  refine ⟨rfl,es',hupdate,fun hv hes => ?_,hclear⟩
  rw [htree]
  rw [Owned.tree] at hes
  exact hm hv hes

theorem applyOne_forgivingOr {looks ordered : Prop} (hd : LibraryTells w.store P functions docs)
    (hl : looks → w.Legible) (hm : SoundMapping docs looks ordered mapping)
    (h : Owned.Held P w.store [.object id es])
    (hc : Open mapping (.object id es)) (hmoderate : ordered → (Owned.object id es).tree.Moderate) :
    ForgivingOr (applyOne attempts functions (.cell id) mapping) w fun _ w' =>
      (looks → w'.Legible) ∧ ∃ es',
      Owned.Update P w.store [.object id es] w'.store [.object id es'] ∧
      (ordered → (Owned.object id es').tree.Moderate) ∧
      ∀ later, (Shares docs mapping → ¬ WritesBelow later mapping) →
        Open later (.object id es) → Open later (.object id es') := by
  have htells : w.store.Tells (.cell id) (Owned.object id es).tree := h.tells List.mem_cons_self
  rw [applyOne_elim]
  refine (computed_forgivingOr h.region hd hl htells hm hmoderate).bind ?_
  rintro o w' ⟨hstore,hlegible,p,hop,hvalue⟩
  rw [← hstore] at h hop ⊢
  cases hop with
  | none => exact .pure ⟨hlegible,es,.refl h,hmoderate,fun _ _ hopen => hopen⟩
  | @some x v hv =>
    obtain ⟨hname,hshares,hv'⟩ := hvalue v rfl
    refine (writeField_forgivingOr hv hname h fun p hp => hc _ (target?_text hp)).bind ?_
    rintro _ w'' ⟨hai,es',hupdate,hm',hclear⟩
    refine .pure ⟨fun hk p hp => hlegible hk p (hai ▸ hp),es',hupdate,
      fun ho => hm' (hv' ho) (hmoderate ho),fun later hlater hopen further hfurther => ?_⟩
    refine hclear further (fun p hp hb => ?_) (hopen further hfurther)
    by_contra hcontainer
    exact hlater (hshares (eq_true_of_ne_false hcontainer))
      ⟨_,further,target?_text hp,hfurther,hb⟩

theorem mapM_applyOne_forgivingOr {looks ordered : Prop} (hd : LibraryTells w.store P functions docs)
    (hl : looks → w.Legible) (hm : ∀ m ∈ mappings, SoundMapping docs looks ordered m)
    (ha : NoneWritesBelow docs mappings) (h : Owned.Held P w.store [.object id es])
    (hc : ∀ m ∈ mappings, Open m (.object id es))
    (hmoderate : ordered → (Owned.object id es).tree.Moderate) :
    ForgivingOr (mappings.mapM (applyOne attempts functions (.cell id))) w fun _ w' =>
      (looks → w'.Legible) ∧
        ∃ es', Owned.Update P w.store [.object id es] w'.store [.object id es'] := by
  induction mappings generalizing w es with
  | nil => exact .pure ⟨hl,es,.refl h⟩
  | cons m rest ih =>
    obtain ⟨hfirst,hothers⟩ := List.forall_mem_cons.1 hm
    obtain ⟨hcm,hcrest⟩ := List.forall_mem_cons.1 hc
    obtain ⟨hlater,ha⟩ := List.pairwise_cons.1 ha
    rw [List.mapM_cons]
    refine (applyOne_forgivingOr hd hl hfirst h hcm hmoderate).bind ?_
    rintro wrote w' ⟨hlegible,es',hupdate,hmoderate',hopen⟩
    have hc' : ∀ m' ∈ rest, Open m' (.object id es') :=
      fun m' hm' => hopen m' (hlater m' hm') (hcrest m' hm')
    refine (ih (hd.update h hupdate) hlegible hothers ha hupdate.held hc' hmoderate').bind ?_
    rintro others w'' ⟨hlegible',es'',hupdate'⟩
    exact .pure ⟨hlegible',es'',hupdate.trans hupdate'⟩

theorem applyRecord_forgivingOr {looks ordered : Prop} (hd : LibraryTells w.store P functions docs)
    (hl : looks → w.Legible) (hm : ∀ m ∈ mappings, SoundMapping docs looks ordered m)
    (ha : NoneWritesBelow docs mappings)
    {o : Owned} (h : Owned.Held P w.store [o]) (ho : o.GuestFree)
    (hmoderate : ordered → o.tree.Moderate) :
    ForgivingOr (applyRecord attempts functions mappings o.item) w fun _ w' => (looks → w'.Legible) ∧
      ∃ o', Owned.Update P w.store [o] w'.store [o'] := by
  have hguest : o.isGuest = false := by cases ho <;> rfl
  unfold applyRecord
  refine .store ?_
  rw [Owned.isObject_item h hguest]
  cases hobject : o.tree.isObject with
  | false => exact .pure ⟨hl,o,.refl h⟩
  | true =>
    cases ho with
    | leaf a =>
      rw [Owned.tree] at hobject
      cases hobject
    | list items =>
      rw [Owned.tree] at hobject
      cases hobject
    | @object id es entries =>
      have hopen : ∀ m ∈ mappings, Open m (.object id es) :=
        fun _ _ path _ => (Owned.GuestFree.object entries).clear path
      refine (mapM_applyOne_forgivingOr hd hl hm ha h hopen hmoderate).bind ?_
      rintro wrote w' ⟨hlegible,es',hupdate⟩
      exact .pure ⟨hlegible,_,hupdate⟩

theorem mapM_applyRecord_forgivingOr {looks ordered : Prop} (hd : LibraryTells w.store P functions docs)
    (hl : looks → w.Legible) (hm : ∀ m ∈ mappings, SoundMapping docs looks ordered m)
    (ha : NoneWritesBelow docs mappings)
    (h : Owned.Held P w.store os) (ho : ∀ o ∈ os, o.GuestFree)
    (hmoderate : ordered → ∀ o ∈ os, o.tree.Moderate) :
    ForgivingOr ((os.map Owned.item).mapM (applyRecord attempts functions mappings)) w
      fun _ _ => True := by
  induction os generalizing w with
  | nil => exact .pure trivial
  | cons o rest ih =>
    obtain ⟨hplain,hrest⟩ := List.forall_mem_cons.1 ho
    have hone : Owned.Held P w.store [o] := (show Owned.Held P w.store ([o] ++ rest) from h).left
    rw [List.map_cons,List.mapM_cons]
    refine (applyRecord_forgivingOr hd hl hm ha hone hplain fun hord =>
      hmoderate hord o List.mem_cons_self).bind ?_
    rintro count w' ⟨hlegible,o',hupdate⟩
    exact (ih (hd.update hone hupdate) hlegible (hupdate.rest h) hrest fun hord x hx =>
      hmoderate hord x (List.mem_cons_of_mem o hx)).bind fun _ _ _ => .pure trivial

theorem records_held {o : Owned} (h : Owned.Held P s [o]) (ho : o.GuestFree) :
    ∃ os, records s o.item = os.map Owned.item ∧ Owned.Held P s os ∧ (∀ x ∈ os, x.GuestFree) ∧
      (o.tree.Moderate → ∀ x ∈ os, x.tree.Moderate) := by
  -- the payload is the one record unless it has a list of orders
  have itself (hrecords : records s o.item = [o.item]) :
      ∃ os, records s o.item = os.map Owned.item ∧ Owned.Held P s os ∧ (∀ x ∈ os, x.GuestFree) ∧
        (o.tree.Moderate → ∀ x ∈ os, x.tree.Moderate) :=
    ⟨[o],hrecords,h,List.forall_mem_singleton.2 ho,fun hm => List.forall_mem_singleton.2 hm⟩
  cases ho with
  | leaf a => exact itself rfl
  | list items =>
    refine itself ?_
    obtain ⟨hcell,-⟩ := Owned.held_list.1 h
    rw [records,Store.field,View.field,View.child?]
    simp only [Owned.item,view,layer,hcell,Cell.layer,Option.getD_none,View.null]
  | @object id es entries =>
    cases horders : Entries.get? es "orders" with
    | none =>
      refine itself ?_
      change records s (.cell id) = _
      rw [records,field_object h,horders]
      rfl
    | some x =>
      have hx : x ∈ Owned.roots es := List.mem_map_of_mem (Entries.mem_of_get? horders)
      have hheld := h.entry horders
      cases entries x hx with
      | leaf a =>
        refine itself ?_
        change records s (.cell id) = _
        rw [records,field_object h,horders]
        rfl
      | @list lid os items =>
        refine ⟨os,records_orders h horders,(Owned.held_list.1 hheld).2.2.2,items,fun hm y hy => ?_⟩
        have horders : ("orders",(Owned.list lid os).tree) ∈ es.map fun e => (e.1,e.2.tree) :=
          List.mem_map_of_mem (f := fun e : String × Owned => (e.1,e.2.tree))
            (Entries.mem_of_get? horders)
        have htree : (Owned.list lid os).tree = .list (os.map Owned.tree) := by rw [Owned.tree]
        rw [htree] at horders
        rw [Owned.tree] at hm
        have hlist := Value.moderate_hereditary.below _ hm _ (List.mem_map_of_mem horders)
        exact Value.moderate_hereditary.below _ hlist _ (List.mem_map_of_mem hy)
      | @object oid fs entries =>
        refine itself ?_
        have hlayer : s.layer (.cell oid) = _ := Owned.layer_object hheld
        change records s (.cell id) = _
        rw [records,field_object h,horders]
        simp only [Option.map_some,Option.getD_some,Owned.item,hlayer]

theorem applyAll_forgivingOr {looks ordered : Prop} (hd : LibraryTells w.store P functions docs)
    (hl : looks → w.Legible) (hm : ∀ m ∈ mappings, SoundMapping docs looks ordered m)
    (ha : NoneWritesBelow docs mappings)
    {o : Owned} (h : Owned.Held P w.store [o]) (ho : o.GuestFree)
    (hmoderate : ordered → o.tree.Moderate) :
    ForgivingOr (applyAll attempts functions mappings o.item) w fun _ _ => True := by
  obtain ⟨os,hrecords,hos,hplain,hparts⟩ := records_held h ho
  unfold applyAll
  refine .store ?_
  rw [hrecords]
  exact (mapM_applyRecord_forgivingOr hd hl hm ha hos hplain fun hord => hparts (hmoderate hord)).bind
    fun _ _ _ => .pure trivial

end FieldFunction

end StepGraph
