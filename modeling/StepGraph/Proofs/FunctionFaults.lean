import StepGraph.Proofs.ComputedField

/-!
What stops a field function. Computing the fields of a payload passes over most faults: over those
that nobody has to hear of, and over those of the workflow itself. A function whose document is
sound stops with such a fault only, as long as whole numbers that it compares by order are in the
range of doubles.
-/
namespace StepGraph

open Attempt

variable {α β ι : Type}

/-- A fault that computing the fields of a payload passes over. -/
def Fault.isForgiven (f : Fault) : Bool := f.isHarmless || f.isWorkflowTrouble

def Forgiving (r : Except Fault α) : Prop := ∀ f, r = .error f → f.isForgiven = true

namespace Forgiving

theorem ok (x : α) : Forgiving (.ok x : Except Fault α) := fun f h => by cases h

theorem error {f : Fault} (h : f.isForgiven = true) : Forgiving (.error f : Except Fault α) := by
  intro f' h'
  cases h'
  exact h

theorem bind {r : Except Fault α} {f : α → Except Fault β} (hr : Forgiving r)
    (hf : ∀ x, r = .ok x → Forgiving (f x)) : Forgiving (r >>= f) := by
  cases r with
  | error e => exact error (hr e rfl)
  | ok x => exact hf x rfl

theorem map {r : Except Fault α} (hr : Forgiving r) (f : α → β) : Forgiving (f <$> r) := by
  cases r with
  | error e => exact error (hr e rfl)
  | ok x => exact ok (f x)

theorem mapM {f : ι → Except Fault β} {is : List ι} (hf : ∀ i ∈ is, Forgiving (f i)) :
    Forgiving (is.mapM f) := by
  induction is with
  | nil => exact ok _
  | cons i is ih =>
    obtain ⟨hi,his⟩ := List.forall_mem_cons.1 hf
    rw [List.mapM_cons]
    exact hi.bind fun _ _ => (ih his).bind fun _ _ => ok _

theorem unwritable (u : Json.Unwritable) : u.fault.isForgiven = true := by cases u <;> rfl

theorem json (l : Json.Layout) (v : Value) : Forgiving (v.json l) := by
  unfold Value.json
  split
  · exact error (unwritable _)
  · exact ok _

theorem display (v : Value) : Forgiving v.display := by
  unfold Value.display
  split
  · exact ok _
  · split
    · exact error (unwritable _)
    · exact ok _

theorem asText (v : Value) : Forgiving v.asText := by
  unfold Value.asText
  split
  · split
    case h_3 =>
      unfold Value.intText
      split
      · exact ok _
      · exact error rfl
    all_goals exact ok _
  · exact json _ _

theorem textOrEmpty (v : Value) : Forgiving v.textOrEmpty := by
  unfold Value.textOrEmpty
  split
  · exact ok _
  · exact asText v

theorem optionalParts (v : Value) : Forgiving v.optionalParts := by
  unfold Value.optionalParts View.optionalParts View.parts
  split
  · split <;> first | exact ok _ | exact error rfl
  · exact ok _

theorem readWhole (s : String) : Forgiving (readWhole s) := by
  unfold StepGraph.readWhole
  split <;> first | exact ok _ | exact error rfl

end Forgiving

theorem Scope.findPath_ok (record path : Value) :
    ∃ v, (Scope.ofValue record).findPath path = .ok v := by
  unfold Scope.findPath
  split
  · simp only [Scope.ofValue,Scope.of]
    split <;> exact ⟨_,rfl⟩
  · exact ⟨_,rfl⟩

namespace Forgiving

theorem findPath (record path : Value) : Forgiving ((Scope.ofValue record).findPath path) := by
  obtain ⟨v,hv⟩ := Scope.findPath_ok record path
  rw [hv]
  exact ok v

theorem textAt (record : Value) (path : String) :
    Forgiving ((Scope.ofValue record).textAt path) := by
  have found : Forgiving ((Scope.ofValue record).find path) := findPath record (.text path)
  refine found.bind fun v _ => ?_
  split
  · exact ok _
  · exact (asText v).map _

theorem fill {look : List Char → Except Fault (Option String)} (h : ∀ body, Forgiving (look body))
    (missing : Option String) (t : Template) : Forgiving (Template.fill look missing t) := by
  induction t with
  | nil => exact ok _
  | cons p t ih =>
    cases p with
    | plain c => exact ih.map _
    | hole body written =>
      have hbody := h body
      unfold Template.fill
      split
      · rename_i f hf
        exact error (hbody f hf)
      · exact ih.map _

theorem resolveText (record : Value) (s : String) (missing : Option String) :
    Forgiving (Template.resolveText (Scope.ofValue record) s id missing) :=
  (fill (fun _ => (textAt record _).map _) missing _).map _

end Forgiving

def Scalar.Moderate : Scalar → Prop
  | .int i => (Decimal.ofInt? i).isSome = true
  | _ => True

/-- All whole numbers in a value are in the range of doubles. -/
inductive Value.Moderate : Value → Prop
  | scalar {a : Scalar} (h : a.Moderate) : Moderate (.scalar a)
  | list {xs : List Value} (h : ∀ x ∈ xs, Moderate x) : Moderate (.list xs)
  | object {es : Entries Value} (h : ∀ x ∈ es.map Prod.snd, Moderate x) : Moderate (.object es)

theorem Scalar.Made.moderate {a : Scalar} (h : a.Made) : a.Moderate := by
  cases h with
  | null => trivial
  | text t => trivial
  | byte n =>
    have all : ∀ k : Fin 256, (Decimal.ofInt? (k.val : Nat)).isSome = true := by decide +kernel
    exact all ⟨n.toNat,n.toNat_lt⟩

namespace Value

theorem moderate_hereditary : view.Hereditary Moderate where
  leaf a ha := .scalar ha.moderate
  below v hv := by
    cases hv with
    | scalar h => simp [view,layer,Layer.below]
    | list h => exact h
    | object h => exact h

theorem Moderate.findPath {record : Value} (h : record.Moderate) {path v : Value}
    (hv : (Scope.ofValue record).findPath path = .ok v) : v.Moderate := by
  unfold Scope.findPath at hv
  split at hv
  · simp only [Scope.ofValue,Scope.of] at hv
    split at hv
    · rename_i x hx
      cases hv
      exact moderate_hereditary.lookup h hx
    · cases hv
      exact .scalar trivial
  · cases hv
    exact .scalar trivial

end Value

namespace Condition

theorem numberOf?_forgiving {v : Value} (h : v.Moderate) : Forgiving (numberOf? v) := by
  unfold numberOf?
  split
  · exact .ok _
  · exact .ok _
  · rename_i i
    cases h with
    | scalar h =>
      obtain ⟨x,hx⟩ := Option.isSome_iff_exists.1 h
      rw [hx]
      exact .ok _
  · exact .ok _
  · exact (Forgiving.display v).bind fun _ _ => .ok _

def Orders (operator : Value) : Prop := ∃ o, Operator.read operator = .ok (.order o)

theorem test_forgiving {actual operator expected : Value}
    (h : Orders operator → actual.Moderate ∧ expected.Moderate) :
    Forgiving (test actual operator expected) := by
  have contained : Forgiving (contained expected actual) :=
    (Forgiving.asText _).bind fun _ _ => (Forgiving.asText _).bind fun _ _ => .ok _
  have named : Forgiving (Operator.read operator) := by
    unfold Operator.read
    split <;> first | exact .ok _ | exact .error rfl
  refine named.bind fun op hop => ?_
  cases op with
  | order o =>
    obtain ⟨hactual,hexpected⟩ := h ⟨o,hop⟩
    refine (numberOf?_forgiving hactual).bind fun x _ => ?_
    refine (numberOf?_forgiving hexpected).bind fun y _ => ?_
    split <;> exact .ok _
  | contains => exact contained
  | lacks => exact contained.bind fun _ _ => .ok _
  | equal => exact (Forgiving.asText _).bind fun _ _ => (Forgiving.asText _).bind fun _ _ => .ok _
  | different =>
    exact (Forgiving.asText _).bind fun _ _ => (Forgiving.asText _).bind fun _ _ => .ok _
  | _ => exact .ok _

end Condition

namespace FieldFunction

def named? (doc : Value) : Option String := (doc.field "type").text?

/-- What may stand between the texts of fields: a text, or nothing. -/
def separates : Value → Bool
  | .scalar .null => true
  | .scalar (.text _) => true
  | .scalar (.bytes _) => true
  | _ => false

def endless : Value → Bool
  | .scalar (.float x) =>
    match Decimal.Reading.ofFloat x with
    | .infinite _ => true
    | _ => false
  | _ => false

/-- A document that a function can be read from: an object, or nothing; the separator, the
conditions and the figures are of the kinds that the function is made for. -/
structure Sound (doc : Value) : Prop where
  object : doc.truthy = true → doc.isObject = true
  separator : named? doc = some "concatenate" → separates (doc.field "separator") = true
  conditions : named? doc = some "conditional" →
    ∀ cs, (doc.field "conditions").optionalParts = .ok cs → ∀ c ∈ cs, c.isObject = true
  figures : named? doc = some "substring" →
    endless (doc.field "start") = false ∧ endless (doc.field "length") = false

def Compares (doc : Value) : Prop :=
  named? doc = some "conditional" ∧ ∃ cs, (doc.field "conditions").optionalParts = .ok cs ∧
    ∃ c ∈ cs, Condition.Orders ((c.field "operator").orElse (.text "equals"))

variable {doc record : Value}

theorem member_eq {v : Value} (h : v.isObject = true) (k : String) :
    v.member k = .ok (v.field k) := by
  cases v with
  | object es => rfl
  | scalar a => cases h
  | list xs => cases h

theorem kind?_eq_named (h : doc.truthy = true → doc.isObject = true) :
    kind? Value.access doc = .ok (named? doc) := by
  unfold kind?
  change (if doc.truthy then _ else _) = _
  split
  · rename_i ht
    have hm : Value.access.member doc "type" = .ok (doc.field "type") := member_eq (h ht) "type"
    rw [hm]
    unfold named?
    generalize doc.field "type" = v
    cases v with
    | scalar a => cases a <;> rfl
    | list xs => rfl
    | object es => rfl
  · rename_i ht
    cases doc with
    | scalar a => rfl
    | list xs => rfl
    | object es =>
      cases es with
      | nil => rfl
      | cons e es => cases ht rfl

theorem textAt_forgiving (path : Value) : Forgiving (textAt (Scope.ofValue record) path) :=
  (Forgiving.findPath record path).bind fun v _ => Forgiving.textOrEmpty v

theorem keyText_forgiving (v : Value) : Forgiving (keyText v) :=
  (Forgiving.textOrEmpty v).bind fun _ _ => .ok _

theorem literal_forgiving (x : Value) :
    Forgiving (literal Value.access (Scope.ofValue record) x) := by
  unfold literal
  split
  · split
    · exact (Forgiving.resolveText record _ _).map _
    · exact .ok _
  · exact .ok _

theorem template_forgiving : Forgiving (template Value.access doc (Scope.ofValue record)) := by
  refine (Forgiving.ok _).bind fun t _ => Forgiving.map ?_ _
  unfold Template.resolveWith
  split
  · exact .ok _
  · exact Forgiving.resolveText record _ _
  · exact Forgiving.asText _

theorem concatenate_forgiving (h : separates (doc.field "separator") = true) :
    Forgiving (concatenate Value.access doc (Scope.ofValue record)) := by
  refine (Forgiving.optionalParts _).bind fun fields _ => ?_
  refine (Forgiving.mapM fun f _ => textAt_forgiving f).bind fun texts _ => ?_
  have hsep : Value.access.field doc "separator" = doc.field "separator" := rfl
  rw [hsep]
  generalize doc.field "separator" = sep at h
  cases sep with
  | scalar a => cases a <;> first | exact .ok _ | exact .error rfl | cases h
  | list xs => cases h
  | object es => cases h

theorem firstHolding_forgiving {default : Value} {cs : List Value}
    (hobject : ∀ c ∈ cs, c.isObject = true)
    (hm : (∃ c ∈ cs, Condition.Orders ((c.field "operator").orElse (.text "equals"))) →
      record.Moderate ∧ ∀ c ∈ cs, c.Moderate) :
    Forgiving (firstHolding Value.access (Scope.ofValue record) default cs) := by
  induction cs with
  | nil => exact literal_forgiving default
  | cons c rest ih =>
    obtain ⟨hc,hrest⟩ := List.forall_mem_cons.1 hobject
    unfold firstHolding
    have hmember : Value.access.member c "field" = .ok (c.field "field") := member_eq hc "field"
    rw [hmember]
    refine (Forgiving.findPath record _).bind fun actual hactual => ?_
    have tested : Forgiving (Condition.test actual ((c.field "operator").orElse (.text "equals"))
        (c.field "value")) := by
      refine Condition.test_forgiving fun ho => ?_
      obtain ⟨hrecord,hcs⟩ := hm ⟨c,List.mem_cons_self,ho⟩
      exact ⟨hrecord.findPath hactual,
        Value.moderate_hereditary.field (hcs c List.mem_cons_self) "value"⟩
    refine tested.bind fun holds _ => ?_
    split
    · exact literal_forgiving _
    · refine ih hrest ?_
      rintro ⟨c',hc',ho⟩
      obtain ⟨hrecord,hcs⟩ := hm ⟨c',List.mem_cons_of_mem c hc',ho⟩
      exact ⟨hrecord,fun c'' hc'' => hcs c'' (List.mem_cons_of_mem c hc'')⟩

theorem mapPairs_forgiving (v : Value) : Forgiving (mapPairs Value.access v) := by
  unfold mapPairs
  split
  · exact .ok _
  · exact (Forgiving.optionalParts v).bind fun _ _ => .ok _

theorem firstMatching_forgiving (key : String) (pairs : List (Value × Value)) :
    Forgiving (firstMatching Value.access key pairs) := by
  induction pairs with
  | nil => exact .ok _
  | cons p rest ih =>
    unfold firstMatching
    refine (Forgiving.ok _).bind fun source _ => (keyText_forgiving source).bind fun text _ => ?_
    split
    · exact .ok _
    · exact ih

theorem valueMap_forgiving : Forgiving (valueMap Value.access doc (Scope.ofValue record)) := by
  refine (Forgiving.ok _).bind fun path _ => (Forgiving.findPath record path).bind fun v _ => ?_
  refine (keyText_forgiving v).bind fun key _ => (mapPairs_forgiving _).bind fun pairs _ => ?_
  refine (firstMatching_forgiving key pairs).bind fun found _ => ?_
  split <;> exact .ok _

theorem fieldText_forgiving : Forgiving (fieldText Value.access doc (Scope.ofValue record)) :=
  (Forgiving.ok _).bind fun path _ => textAt_forgiving path

theorem whole_forgiving {v : Value} (h : endless v = false) : Forgiving v.whole := by
  cases v with
  | list xs => exact .error rfl
  | object es => exact .error rfl
  | scalar a =>
    cases a with
    | text t => exact Forgiving.readWhole t
    | float x =>
      unfold endless at h
      unfold Value.whole
      simp only at h ⊢
      cases hr : Decimal.Reading.ofFloat x <;> rw [hr] at h
      · exact .ok _
      · cases h
      · exact .error rfl
    | bool b => exact .ok _
    | int i => exact .ok _
    | null => exact .error rfl
    | bytes b => exact .error rfl
    | moment t => exact .error rfl

theorem substring_forgiving (hstart : endless (doc.field "start") = false)
    (hlength : endless (doc.field "length") = false) :
    Forgiving (substring Value.access doc (Scope.ofValue record)) := by
  refine fieldText_forgiving.bind fun text _ => (Forgiving.ok _).bind fun start hs => ?_
  have hstart : endless start = false := by
    cases hs
    change endless (if (doc.field "start").truthy then doc.field "start" else .int 0) = false
    split
    · exact hstart
    · rfl
  refine (whole_forgiving hstart).bind fun n _ => ?_
  simp only
  split
  · exact .ok _
  · exact (Forgiving.ok _).bind fun length hl => by
      cases hl
      exact (whole_forgiving hlength).bind fun _ _ => .ok _

theorem evaluate_forgiving (h : Sound doc) (hm : Compares doc → record.Moderate ∧ doc.Moderate) :
    Forgiving (evaluate Value.access doc (Scope.ofValue record)) := by
  unfold evaluate
  rw [kind?_eq_named h.object]
  refine (Forgiving.ok (named? doc)).bind fun kind hk => ?_
  cases hk
  split
  · exact template_forgiving
  · exact concatenate_forgiving (h.separator ‹_›)
  · refine (Forgiving.optionalParts _).bind fun cs hcs => ?_
    have hcs : (doc.field "conditions").optionalParts = .ok cs := hcs
    refine firstHolding_forgiving (h.conditions ‹_› cs hcs) fun ho => ?_
    obtain ⟨hrecord,hdoc⟩ := hm ⟨‹_›,cs,hcs,ho⟩
    exact ⟨hrecord,Value.moderate_hereditary.optionalParts
      (Value.moderate_hereditary.field hdoc _) hcs⟩
  · exact valueMap_forgiving
  · obtain ⟨hstart,hlength⟩ := h.figures ‹_›
    exact substring_forgiving hstart hlength
  · exact fieldText_forgiving.bind fun _ _ => .ok _
  · exact fieldText_forgiving.bind fun _ _ => .ok _
  · exact .ok _

theorem address_forgiving : Forgiving (address Value.access doc (Scope.ofValue record)) := by
  refine (Forgiving.optionalParts _).bind fun fields _ => ?_
  refine (Forgiving.mapM fun f _ => ?_).bind fun texts _ => .ok _
  exact (textAt_forgiving f).bind fun _ _ => .ok _

theorem wanted_forgiving : Forgiving (wanted Value.access doc) := by
  unfold wanted
  simp only
  split
  · exact .ok _
  · exact (Forgiving.asText (.int _)).map _
  · exact .ok _
  · exact .error rfl

end FieldFunction

end StepGraph
