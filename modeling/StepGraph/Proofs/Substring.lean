import StepGraph.Proofs.FunctionFaults

/-!
Cutting a text from a place on, with a length and without one. With a length never more is left than
so many characters of what is left without one; whether it is exactly so many depends on the place.
A place that counts from the end goes wrong where the length reaches the end of the text, since the
place behind the last character is then counted from the front.
-/
namespace StepGraph

namespace Text

variable {start : Int} {length : Nat} {cs : List Char}

/-- Where a length from a place on only shortens the rest of a text of some size. It does from a
place counted from the front, to no length, and in an empty text. From a place counted from the end
it does if the place lies in the text and the length ends before the text, or else if the length is
so large that it leads behind the text even when it is counted from the front. -/
def Shortens (start : Int) (length size : Nat) : Prop :=
  0 ≤ start ∨ length = 0 ∨ size = 0 ∨ (-size ≤ start ∧ start + length < 0) ∨ size ≤ start + length

instance (start : Int) (length size : Nat) : Decidable (Shortens start length size) :=
  inferInstanceAs (Decidable (_ ∨ _))

theorem slice_eq_take (start stop : Int) (cs : List Char) :
    slice start stop cs = (sliceFrom start cs).take (bound stop cs.length - bound start cs.length) :=
  rfl

theorem bound_sub_le (start : Int) (length size : Nat) :
    bound (start + length) size - bound start size ≤ length := by
  unfold bound
  split <;> split <;> omega

/-- The places at both ends are so far apart as the length and the text allow exactly where the
length shortens. -/
theorem bound_sub_iff (start : Int) (length size : Nat) :
    min (bound (start + length) size - bound start size) (size - bound start size) =
      min length (size - bound start size) ↔ Shortens start length size := by
  unfold Shortens bound
  split <;> split <;> omega

theorem slice_shortens_iff :
    slice start (start + length) cs = (sliceFrom start cs).take length ↔
      Shortens start length cs.length := by
  rw [slice_eq_take,List.take_eq_take_iff,sliceFrom,List.length_drop]
  exact bound_sub_iff start length cs.length

/-- The whole rest is left exactly where the length shortens, but not to less than the rest. -/
theorem slice_whole_iff :
    slice start (start + length) cs = sliceFrom start cs ↔
      Shortens start length cs.length ∧ (sliceFrom start cs).length ≤ length := by
  constructor
  · intro h
    have hle : (sliceFrom start cs).length ≤ length := by
      rw [← h,slice_eq_take]
      exact Nat.le_trans (List.length_take_le _ _) (bound_sub_le start length cs.length)
    refine ⟨slice_shortens_iff.1 ?_,hle⟩
    rw [h,List.take_of_length_le hle]
  · rintro ⟨hshortens,hle⟩
    rw [slice_shortens_iff.2 hshortens,List.take_of_length_le hle]

end Text

namespace FieldFunction

variable {es : Entries Value} {start : Int}

def Result.shortened {α : Type} (n : Nat) : Result α → Result α
  | .text s => .text (String.ofList (s.toList.take n))
  | .part x => .part x

/-- A function that cuts a text from a place on and says nothing of a length. -/
structure Cuts (es : Entries Value) (start : Int) : Prop where
  type : (Value.object es).field "type" = .text "substring"
  start : (Value.object es).field "start" = .int start
  length : isNoLength Value.access ((Value.object es).field "length") = true

def withLength (es : Entries Value) (length : Nat) : Value :=
  .object (es.put "length" (.int length))

theorem field_withLength {k : String} (h : k ≠ "length") (es : Entries Value) (length : Nat) :
    (withLength es length).field k = (Value.object es).field k := by
  change (Entries.get? (es.put "length" _) k).getD .null = (es.get? k).getD .null
  rw [Entries.get?_put_of_ne h]

theorem fieldText_withLength (es : Entries Value) (length : Nat) (record : Scope) :
    fieldText Value.access (withLength es length) record =
      fieldText Value.access (.object es) record := by
  have hfield : Value.access.field (withLength es length) "field" =
      Value.access.field (.object es) "field" := field_withLength (by decide) es length
  unfold fieldText
  rw [hfield]

theorem whole_start {v : Value} {start : Int} (h : v = .int start) :
    (Value.access.orElse v (Value.access.leaf (.int 0))).whole = .ok start := by
  subst h
  by_cases hzero : start = 0
  · subst hzero
    rfl
  · have htruthy : Value.access.truthy (.int start) = true := by
      change (start != 0) = true
      simpa using hzero
    rw [View.orElse,htruthy]
    rfl

theorem evaluate_substring {doc : Value} {start : Int} (hobject : doc.isObject = true)
    (htype : doc.field "type" = .text "substring") (hstart : doc.field "start" = .int start)
    (record : Scope) :
    evaluate Value.access doc record = (do
      let text ← fieldText Value.access doc record
      if isNoLength Value.access (doc.field "length") then
        return .text (String.ofList (Text.sliceFrom start text.toList))
      else
        let n ← (doc.field "length").whole
        return .text (String.ofList (Text.slice start (start + n) text.toList))) := by
  have hnamed : named? doc = some "substring" := by
    unfold named?
    rw [htype]
    rfl
  unfold evaluate
  rw [kind?_eq_named fun _ => hobject,hnamed]
  change substring Value.access doc record = _
  unfold substring
  cases fieldText Value.access doc record with
  | error f => rfl
  | ok text =>
    change (Value.whole _ >>= _) = _
    rw [whole_start (v := Value.access.field doc "start") hstart]
    rfl

theorem Cuts.evaluate_eq (h : Cuts es start) (record : Scope) :
    evaluate Value.access (.object es) record =
      (fun text => .text (String.ofList (Text.sliceFrom start text.toList))) <$>
        fieldText Value.access (.object es) record := by
  rw [evaluate_substring rfl h.type h.start]
  simp only [h.length,if_true]
  rfl

theorem Cuts.evaluate_withLength (h : Cuts es start) (length : Nat) (record : Scope) :
    evaluate Value.access (withLength es length) record =
      (fun text => .text (String.ofList (Text.slice start (start + length) text.toList))) <$>
        fieldText Value.access (.object es) record := by
  have hlength : (withLength es length).field "length" = .int length := by
    change (Entries.get? (es.put "length" _) "length").getD .null = _
    rw [Entries.get?_put_self]
    rfl
  rw [evaluate_substring rfl ((field_withLength (by decide) es length).trans h.type)
    ((field_withLength (by decide) es length).trans h.start),fieldText_withLength,hlength]
  rfl

theorem text_eq_iff {cs cs' : List Char} :
    (.ok (.text (String.ofList cs)) : Except Fault (Result Value)) = .ok (.text (String.ofList cs')) ↔
      cs = cs' := by simp [String.ofList_inj]

theorem shortened_text (n : Nat) (cs : List Char) :
    Result.shortened n (.text (String.ofList cs) : Result Value) =
      .text (String.ofList (cs.take n)) := by
  rw [Result.shortened,String.toList_ofList]

/-- With a length a text is cut as without one and then shortened to no more characters than that.
It is shortened to just as many exactly if the length does so at this place in whatever text the
field has, and it stays as it is exactly if moreover the length is no less than what is left. -/
theorem substring_shortens (h : Cuts es start) (length : Nat) (record : Scope) :
    let whole := evaluate Value.access (.object es) record
    let cut := evaluate Value.access (withLength es length) record
    let field := fieldText Value.access (.object es) record
    (∃ n ≤ length, cut = Result.shortened n <$> whole) ∧
      (cut = Result.shortened length <$> whole ↔
        ∀ text, field = .ok text → Text.Shortens start length text.toList.length) ∧
      (cut = whole ↔ ∀ text, field = .ok text → Text.Shortens start length text.toList.length ∧
        (Text.sliceFrom start text.toList).length ≤ length) := by
  simp only
  rw [h.evaluate_eq,h.evaluate_withLength]
  cases fieldText Value.access (.object es) record with
  | error f =>
    have hvain {P : String → Prop} : ∀ text, (.error f : Except Fault String) = .ok text → P text :=
      fun text ht => nomatch ht
    exact ⟨⟨0,Nat.zero_le length,rfl⟩,iff_of_true rfl hvain,iff_of_true rfl hvain⟩
  | ok text =>
    have hfield {P : String → Prop} :
        (∀ text', (.ok text : Except Fault String) = .ok text' → P text') ↔ P text := by simp
    have hmap {α β : Type} (g : α → β) (x : α) : g <$> (.ok x : Except Fault α) = .ok (g x) := rfl
    rw [hfield,hfield]
    simp only [hmap,shortened_text,text_eq_iff]
    refine ⟨⟨_,Text.bound_sub_le start length text.toList.length,rfl⟩,?_,?_⟩
    · exact Text.slice_shortens_iff
    · exact Text.slice_whole_iff

/-- Of the last three characters, the first two are left by a length of two; a length of three leaves
less than all of them. -/
theorem substring_shortens_last :
    let es : Entries Value :=
      [("type",.text "substring"),("field",.text "code"),("start",.int (-3))]
    let record := Scope.ofValue (.object [("code",.text "ABCDEF")])
    let whole := evaluate Value.access (.object es) record
    Cuts es (-3) ∧ evaluate Value.access (withLength es 2) record = Result.shortened 2 <$> whole ∧
      evaluate Value.access (withLength es 3) record ≠ whole := by
  intro es record whole
  have hcuts : Cuts es (-3) := ⟨rfl,rfl,rfl⟩
  have hfield : fieldText Value.access (.object es) record = .ok "ABCDEF" :=
    Attempt.eq_ok_of_toOption (by decide +kernel)
  refine ⟨hcuts,(substring_shortens hcuts 2 record).2.1.2 fun text htext => ?_,fun hsame => ?_⟩
  · cases hfield.symm.trans htext
    decide
  · have hshortens := ((substring_shortens hcuts 3 record).2.2.1 hsame "ABCDEF" hfield).1
    exact absurd hshortens (by decide)

end FieldFunction

end StepGraph
