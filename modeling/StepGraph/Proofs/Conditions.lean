import StepGraph.Proofs.FunctionFaults
import StepGraph.Proofs.Mirror
import StepGraph.Proofs.Writable
import StepGraph.Steps.Check

/-!
Conditions and the verdict on them. A comparison of texts needs both sides to have a text, and a
comparison by order needs them to have no number out of the range of doubles; every other condition
is answered whatever it is asked of. Answered conditions come to one verdict, in whichever order
they are asked.
-/
namespace StepGraph

open Attempt

namespace Condition

def Countable : Value → Prop
  | .scalar a => a.Moderate
  | v => v.Writable

def Settled (actual expected : Value) : Operator → Prop
  | .equal | .different | .contains | .lacks => actual.Writable ∧ expected.Writable
  | .order _ => Countable actual ∧ Countable expected
  | _ => True

variable {v actual expected : Value}

theorem numberOf?_ok_iff : (∃ n, numberOf? v = .ok n) ↔ Countable v := by
  cases v with
  | list xs => exact map_ok_iff.trans Value.display_iff
  | object es => exact map_ok_iff.trans Value.display_iff
  | scalar a =>
    cases a with
    | int i =>
      change _ ↔ (Decimal.ofInt? i).isSome = true
      unfold numberOf?
      cases h : Decimal.ofInt? i <;> simp [h]
    | _ => exact ⟨fun _ => trivial,fun _ => ⟨_,rfl⟩⟩

theorem ordered_ok_iff (o : Comparison) :
    (∃ b, ordered o actual expected = .ok b) ↔ Countable actual ∧ Countable expected := by
  rw [← numberOf?_ok_iff,← numberOf?_ok_iff]
  refine bind_ok_iff fun left => ?_
  refine (bind_ok_iff fun right => iff_true_intro ?_).trans (iff_of_eq (and_true _))
  cases left <;> cases right <;> exact ⟨_,rfl⟩

theorem evaluate_ok_iff (op : Operator) :
    (∃ b, evaluate op actual expected = .ok b) ↔ Settled actual expected op := by
  have texts : (∃ x, actual.asText = .ok x) ∧ (∃ x, expected.asText = .ok x) ↔
      actual.Writable ∧ expected.Writable := and_congr Value.asText_iff Value.asText_iff
  have contained : (∃ b, contained expected actual = .ok b) ↔
      actual.Writable ∧ expected.Writable := (both_ok_iff.trans and_comm).trans texts
  cases op with
  | equal => exact both_ok_iff.trans texts
  | different => exact both_ok_iff.trans texts
  | contains => exact contained
  | lacks => exact map_ok_iff.trans contained
  | order o => exact ordered_ok_iff o
  | _ => exact ⟨fun _ => trivial,fun _ => ⟨_,rfl⟩⟩

end Condition

structure Question where
  operator : Operator
  actual : Value
  expected : Value

namespace Question

def answer (q : Question) : Except Fault Bool := Condition.evaluate q.operator q.actual q.expected

def AnsweredYes (q : Question) : Prop := q.answer = .ok true

def Settled (q : Question) : Prop := Condition.Settled q.actual q.expected q.operator

theorem answer_ok_iff (q : Question) : (∃ b, q.answer = .ok b) ↔ q.Settled :=
  Condition.evaluate_ok_iff q.operator

end Question

namespace Steps

def settingText (v : Value) : String := v.text?.getD ""

def TextOrNone (v : Value) : Prop := v = .null ∨ ∃ t, v = .text t

def Textual (c : Value) (names : List String) : Prop := ∀ n ∈ names, TextOrNone (c.field n)

def barePath (path : String) : String :=
  String.ofList (Condition.withoutClosing (Condition.withoutOpening path.toList))

/-- The question about the value at a path, by the operator that a setting names. -/
def question (context path operator expected : Value) : Question :=
  ⟨.ofName (settingText operator),context.lookup (barePath (settingText path)),expected⟩

def mainQuestion (context config : Value) : Question :=
  question context (firstSetting config ["fieldPath","jsonPath","checkField"])
    (firstSetting config ["operator","conditionType"]) (config.field "expectedValue")

def furtherQuestion (context c : Value) : Question :=
  question context (firstSetting c ["jsonPath","fieldPath"]) (c.field "operator")
    (c.field "expectedValue")

def questions (context config : Value) (further : List Value) : List Question :=
  mainQuestion context config :: further.map (furtherQuestion context)

/-- A configuration whose paths and operators are texts and whose further conditions are
objects. -/
structure Conditional (config : Value) (further : List Value) : Prop where
  main : Textual config ["fieldPath","jsonPath","checkField","operator","conditionType"]
  listed : (config.field "additionalConditions").optionalParts = .ok further
  objects : ∀ c ∈ further, c.isObject = true
  each : ∀ c ∈ further, Textual c ["jsonPath","fieldPath","operator"]

def logicalOperator (config : Value) : Value :=
  (config.field "logicalOperator").orElse (.text "AND")

def Disjunctive (config : Value) : Prop := Text.upper (logicalOperator config).displayed = "OR"

instance (config : Value) : Decidable (Disjunctive config) := inferInstanceAs (Decidable (_ = _))

/-- All of the conditions hold, or one of them where that is enough. -/
def Verdict (config : Value) (qs : List Question) : Prop :=
  (Disjunctive config → ∃ q ∈ qs, q.AnsweredYes) ∧ (¬Disjunctive config → ∀ q ∈ qs, q.AnsweredYes)

def verdictName (config : Value) (id : String) : Value :=
  (config.field "storeResultAs").orElse (.text ("condition_" ++ id ++ "_result"))

variable {config v : Value} {further : List Value}

theorem Textual.mono {names names' : List String} (h : Textual config names)
    (hn : ∀ n ∈ names', n ∈ names) : Textual config names' := fun n hn' => h n (hn n hn')

theorem Textual.firstSetting {names : List String} (h : Textual config names) :
    TextOrNone (firstSetting config names) := by
  induction names with
  | nil => exact .inl rfl
  | cons n names ih =>
    have hrest := ih fun n' hn' => h n' (List.mem_cons_of_mem n hn')
    change TextOrNone ((config.field n).orElse (Steps.firstSetting config names))
    unfold Value.orElse View.orElse
    split
    · exact h n List.mem_cons_self
    · exact hrest

namespace TextOrNone

variable (h : TextOrNone v)

include h

theorem orElse (default : String) : v.orElse (.text default) =
    .text (if settingText v = "" then default else settingText v) := by
  rcases h with rfl | ⟨t,rfl⟩
  · rfl
  · by_cases ht : t = "" <;>
      simp [Value.orElse,View.orElse,View.truthy,Value.view,Value.layer,Scalar.truthy,settingText,
        Value.text?,ht]

theorem cleanPath : Condition.cleanPath v = .ok (barePath (settingText v)) := by
  unfold Condition.cleanPath
  rw [h.orElse]
  split
  · rename_i ht
    rw [ht]
    rfl
  · rfl

theorem operator : Operator.read (v.orElse (.text "exists")) = .ok (.ofName (settingText v)) := by
  rw [h.orElse]
  split
  · rename_i ht
    rw [ht]
    rfl
  · rfl

end TextOrNone

def together (config : Value) : List Bool → Except Fault Bool
  | [b] => .ok b
  | bs => combined config bs

def ruling (config : Value) (qs : List Question) : Except Fault Bool :=
  qs.mapM Question.answer >>= together config

theorem together_ok_iff (config : Value) (bs : List Bool) :
    (∃ b, together config bs = .ok b) ↔ (bs.length ≠ 1 → (logicalOperator config).Writable) := by
  have hcombined (bs : List Bool) :
      (∃ b, combined config bs = .ok b) ↔ (logicalOperator config).Writable :=
    map_ok_iff.trans Value.display_iff
  match bs with
  | [b] => exact ⟨fun _ h => absurd rfl h,fun _ => ⟨b,rfl⟩⟩
  | [] => exact (hcombined []).trans (by simp)
  | b :: b' :: bs => exact (hcombined (b :: b' :: bs)).trans (by simp)

theorem ruling_ok_iff (config : Value) (qs : List Question) :
    (∃ b, ruling config qs = .ok b) ↔
      (∀ q ∈ qs, q.Settled) ∧ (qs.length ≠ 1 → (logicalOperator config).Writable) := by
  have hanswers : (∃ bs, qs.mapM Question.answer = .ok bs) ↔ ∀ q ∈ qs, q.Settled :=
    mapM_ok_iff.trans (forall₂_congr fun q _ => q.answer_ok_iff)
  rw [← hanswers,ruling]
  constructor
  · rintro ⟨b,hb⟩
    obtain ⟨bs,hbs,hb⟩ := eq_ok_of_bind hb
    have hlen := (Fault.forall₂_of_mapM hbs).length_eq
    exact ⟨⟨bs,hbs⟩,hlen ▸ (together_ok_iff config bs).1 ⟨b,hb⟩⟩
  · rintro ⟨⟨bs,hbs⟩,hw⟩
    have hlen := (Fault.forall₂_of_mapM hbs).length_eq
    rw [hbs]
    exact (together_ok_iff config bs).2 (hlen ▸ hw)

variable {qs : List Question} {bs : List Bool} {b : Bool}

theorem all_iff (h : List.Forall₂ (fun q b => Question.answer q = .ok b) qs bs) :
    bs.all id = true ↔ ∀ q ∈ qs, q.AnsweredYes := by
  induction h with
  | nil => simp
  | @cons q b _ _ hq _ ih =>
    have hb : b = true ↔ q.AnsweredYes := by simp [Question.AnsweredYes,hq]
    rw [List.all_cons,Bool.and_eq_true,ih,List.forall_mem_cons]
    exact and_congr_left' hb

theorem any_iff (h : List.Forall₂ (fun q b => Question.answer q = .ok b) qs bs) :
    bs.any id = true ↔ ∃ q ∈ qs, q.AnsweredYes := by
  induction h with
  | nil => simp
  | @cons q b _ _ hq _ ih =>
    have hb : b = true ↔ q.AnsweredYes := by simp [Question.AnsweredYes,hq]
    rw [List.any_cons,Bool.or_eq_true,ih,List.exists_mem_cons_iff]
    exact or_congr_left hb

theorem combined_iff (h : combined config bs = .ok b) : b = true ↔
    (Disjunctive config → bs.any id = true) ∧ (¬Disjunctive config → bs.all id = true) := by
  obtain ⟨how,hhow,hb⟩ := eq_ok_of_bind h
  have hshown : (logicalOperator config).displayed = how :=
    ((Value.told_display _).eq_of_ok hhow).symm
  cases hb
  by_cases hor : Text.upper how = "OR"
  · simp [Disjunctive,hshown,hor]
  · simp [Disjunctive,hshown,hor]

theorem together_iff (h : together config bs = .ok b) : b = true ↔
    (Disjunctive config → bs.any id = true) ∧ (¬Disjunctive config → bs.all id = true) := by
  match bs with
  | [b'] =>
    cases h
    simp
  | [] => exact combined_iff h
  | _ :: _ :: _ => exact combined_iff h

theorem ruling_iff (h : ruling config qs = .ok b) : b = true ↔ Verdict config qs := by
  obtain ⟨bs,hbs,hb⟩ := eq_ok_of_bind h
  have hanswers := Fault.forall₂_of_mapM hbs
  have hall := all_iff hanswers
  have hany := any_iff hanswers
  unfold Verdict
  rw [← hall,← hany]
  exact together_iff hb

/-- The same configuration but for the order of its further conditions. -/
structure Reordered (config config' : Value) (further further' : List Value) : Prop where
  others : ∀ k, k ≠ "additionalConditions" → config'.field k = config.field k
  conditions : further'.Perm further

namespace Reordered

variable {config' : Value} {further' : List Value} (h : Reordered config config' further further')

include h

theorem firstSetting {names : List String} (hn : "additionalConditions" ∉ names) :
    firstSetting config' names = firstSetting config names := by
  induction names with
  | nil => rfl
  | cons n names ih =>
    rw [List.mem_cons,not_or] at hn
    change (config'.field n).orElse (Steps.firstSetting config' names) =
      (config.field n).orElse (Steps.firstSetting config names)
    rw [h.others n (Ne.symm hn.1),ih hn.2]

theorem questions (context : Value) :
    (questions context config' further').Perm (questions context config further) := by
  have hmain : mainQuestion context config' = mainQuestion context config := by
    rw [mainQuestion,mainQuestion,h.firstSetting (by simp),h.firstSetting (by simp),
      h.others _ (by simp)]
  rw [Steps.questions,Steps.questions,hmain]
  exact (h.conditions.map _).cons _

theorem ruling {b b' : Bool} {context : Value}
    (hb : ruling config (Steps.questions context config further) = .ok b)
    (hb' : Steps.ruling config' (Steps.questions context config' further') = .ok b') : b' = b := by
  have hmem (q : Question) := (h.questions context).mem_iff (a := q)
  have hiff : Verdict config' (Steps.questions context config' further') ↔
      Verdict config (Steps.questions context config further) := by
    have hdisjunctive : Disjunctive config' ↔ Disjunctive config := by
      rw [Disjunctive,Disjunctive,logicalOperator,logicalOperator,h.others _ (by simp)]
    unfold Verdict
    simp only [hdisjunctive,hmem]
  rw [Bool.eq_iff_iff,ruling_iff hb',ruling_iff hb,hiff]

end Reordered

end Steps

end StepGraph
