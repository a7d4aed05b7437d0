import StepGraph.Json.Reader
import StepGraph.Proofs.HeapProgram
import StepGraph.Proofs.Keys

/-!
Values that can be written. Only a whole number with too many digits has no text. Reading refuses
such numbers too, so whatever was read from a document can be written again.
-/
namespace StepGraph

theorem tenTo_mono {m n : Nat} (h : m ≤ n) : tenTo m ≤ tenTo n :=
  Nat.pow_le_pow_right (by decide) h

namespace Text

theorem digit?_lt {c : Char} {n : Nat} (h : digit? c = some n) : n < 10 := by
  unfold digit? at h
  obtain ⟨z,hz,rfl⟩ := Option.map_eq_some_iff.1 h
  have hc := List.find?_some hz
  simp only [Bool.and_eq_true,decide_eq_true_eq] at hc
  omega

theorem digitsToNat_lt (cs : List Char) : digitsToNat cs < tenTo cs.length := by
  have digit (c : Char) : (digit? c).getD 0 < 10 := by
    cases h : digit? c with
    | none => simp
    | some n => exact digit?_lt h
  have more (cs : List Char) (n : Nat) :
      cs.foldl (fun n c => 10 * n + (digit? c).getD 0) n < (n + 1) * 10 ^ cs.length := by
    induction cs generalizing n with
    | nil => simp
    | cons c cs ih =>
      have hc := digit c
      calc
        _ < (10 * n + (digit? c).getD 0 + 1) * 10 ^ cs.length := ih _
        _ ≤ (n + 1) * 10 * 10 ^ cs.length := Nat.mul_le_mul_right _ (by omega)
        _ = (n + 1) * 10 ^ (c :: cs).length := by
          rw [List.length_cons,Nat.pow_succ',Nat.mul_assoc]
  simpa [digitsToNat,tenTo] using more cs 0

end Text

namespace Value

/-- Every whole number in the value has few enough digits to be written. -/
def Writable (v : Value) : Prop := Json.fault? false v = none

def displayed (v : Value) : String :=
  match v with
  | .text t => t
  | v => v.shown

instance (v : Value) : Decidable v.Writable := inferInstanceAs (Decidable (_ = _))

theorem eq_null : ∀ {v : Value}, v.isNull = true → v = .null
  | .scalar s, h => by
    cases s with
    | null => rfl
    | _ => cases h
  | .list _, h => by cases h
  | .object _, h => by cases h

theorem writable_text (t : String) : (Value.text t).Writable := rfl

theorem writable_list {xs : List Value} : (Value.list xs).Writable ↔ ∀ x ∈ xs, x.Writable := by
  change Json.itemsFault? false xs = none ↔ _
  induction xs with
  | nil => simp [Json.itemsFault?]
  | cons x xs ih => simp [Json.itemsFault?,Writable,ih]

theorem writable_object {es : Entries Value} :
    (Value.object es).Writable ↔ ∀ e ∈ es, e.2.Writable := by
  change Json.entriesFault? false es = none ↔ _
  induction es with
  | nil => simp [Json.entriesFault?]
  | cons e es ih => simp [Json.entriesFault?,Writable,ih]

theorem writable_int {i : Int} : (Value.int i).Writable ↔ i.natAbs < Json.writtenLimit := by
  simp [Writable,Json.fault?,Json.scalarFault?]

theorem writable_byte (n : UInt8) : (Value.int n.toNat).Writable := by
  have hn : n.toNat < tenTo 3 := Nat.lt_trans n.toNat_lt (by decide)
  rw [writable_int,Int.natAbs_natCast]
  exact Nat.lt_of_lt_of_le hn (tenTo_mono (by decide))

theorem Writable.orElse {v w : Value} (hv : v.Writable) (hw : w.Writable) :
    (v.orElse w).Writable := by
  unfold Value.orElse View.orElse
  split
  · exact hv
  · exact hw

theorem writable_hereditary : view.Hereditary Writable where
  leaf a ha := by
    cases ha with
    | null => rfl
    | text t => rfl
    | byte n => exact writable_byte n
  below v hv := by
    cases v with
    | scalar a => simp [view,layer,Layer.below]
    | list xs => exact writable_list.1 hv
    | object es =>
      intro y hy
      obtain ⟨e,he,rfl⟩ := List.mem_map.1 hy
      exact writable_object.1 hv e he

mutual

theorem fault?_lenient : ∀ v : Value, Json.fault? false v ≠ some .leaf
  | .scalar a => by cases a <;> simp [Json.fault?,Json.scalarFault?]
  | .list xs => itemsFault?_lenient xs
  | .object es => entriesFault?_lenient es

theorem itemsFault?_lenient : ∀ xs : List Value, Json.itemsFault? false xs ≠ some .leaf
  | [] => by simp [Json.itemsFault?]
  | x :: rest => by
    have hx := fault?_lenient x
    have hrest := itemsFault?_lenient rest
    cases h : Json.fault? false x <;> simp_all [Json.itemsFault?]

theorem entriesFault?_lenient :
    ∀ es : List (String × Value), Json.entriesFault? false es ≠ some .leaf
  | [] => by simp [Json.entriesFault?]
  | (_,v) :: rest => by
    have hv := fault?_lenient v
    have hrest := entriesFault?_lenient rest
    cases h : Json.fault? false v <;> simp_all [Json.entriesFault?]

end

/-- A computation gives a result, unless something that it needs cannot be written. -/
inductive Told {α : Type} (needed : Prop) (x : α) : Except Fault α → Prop
  | done : Told needed x (.ok x)
  | refused (h : ¬needed) : Told needed x (.error (.invalid Json.tooManyDigitsToWrite))

namespace Told

variable {α β : Type} {needed needed' : Prop} {x y : α} {r : Except Fault α}

theorem eq_ok (h : Told needed x r) (hn : needed) : r = .ok x := by
  cases h with
  | done => rfl
  | refused h => exact absurd hn h

theorem eq_of_ok (h : Told needed x r) (hr : r = .ok y) : y = x := by
  cases h with
  | done => simpa using hr.symm
  | refused h => cases hr

theorem of_error (h : Told needed x r) {f : Fault} (hr : r = .error f) :
    f = .invalid Json.tooManyDigitsToWrite ∧ ¬needed := by
  cases h with
  | done => cases hr
  | refused h =>
    cases hr
    exact ⟨rfl,h⟩

theorem mono (h : Told needed x r) (hn : needed' → needed) : Told needed' x r := by
  cases h with
  | done => exact .done
  | refused h => exact .refused fun h' => h (hn h')

theorem bind {f : α → Except Fault β} {z : β} (h : Told needed x r)
    (hf : Told needed z (f x)) : Told needed z (r >>= f) := by
  cases h with
  | done => exact hf
  | refused h => exact .refused h

theorem mapM {f : α → Except Fault β} {g : α → β} {xs : List α}
    (h : ∀ x ∈ xs, Told needed (g x) (f x)) : Told needed (xs.map g) (xs.mapM f) := by
  induction xs with
  | nil => exact .done
  | cons x xs ih =>
    rw [List.mapM_cons,List.map_cons]
    have hrest := ih fun y hy => h y (List.mem_cons_of_mem x hy)
    exact (h x List.mem_cons_self).bind (hrest.bind .done)

end Told

/-- A computation fails only where something that it needs cannot be written. -/
def Sayable {α : Type} (needed : Prop) (r : Except Fault α) : Prop :=
  ∀ f, r = .error f → f = .invalid Json.tooManyDigitsToWrite ∧ ¬needed

theorem Told.sayable {α : Type} {needed : Prop} {x : α} {r : Except Fault α}
    (h : Told needed x r) : Sayable needed r := fun _ hr => h.of_error hr

namespace Sayable

variable {α β : Type} {needed needed' : Prop} {r : Except Fault α}

theorem ok (x : α) : Sayable needed (.ok x) := fun _ hr => nomatch hr

theorem mono (h : Sayable needed r) (hn : needed' → needed) : Sayable needed' r := by
  intro f hr
  obtain ⟨hf,hneeded⟩ := h f hr
  exact ⟨hf,fun h' => hneeded (hn h')⟩

theorem bind {f : α → Except Fault β} (h : Sayable needed r)
    (hf : ∀ x, r = .ok x → Sayable needed (f x)) : Sayable needed (r >>= f) := by
  cases r with
  | error e =>
    intro e' he
    cases he
    exact h e rfl
  | ok x => exact hf x rfl

theorem exists_ok (h : Sayable needed r) (hn : needed) : ∃ x, r = .ok x := by
  cases r with
  | error e => exact absurd hn (h e rfl).2
  | ok x => exact ⟨x,rfl⟩

end Sayable

theorem fault?_of_not_writable {v : Value} (h : ¬v.Writable) :
    Json.fault? false v = some .tooManyDigits := by
  cases hfault : Json.fault? false v with
  | none => exact absurd hfault h
  | some u =>
    cases u with
    | tooManyDigits => rfl
    | leaf => exact absurd hfault (fault?_lenient v)

theorem told_json (l : Json.Layout) (v : Value) :
    Told v.Writable (Json.render l 0 v) (v.json l) := by
  unfold Value.json
  by_cases h : v.Writable
  · rw [show Json.fault? false v = none from h]
    exact .done
  · rw [fault?_of_not_writable h]
    exact .refused h

theorem told_display (v : Value) : Told v.Writable v.displayed v.display := by
  by_cases h : ∃ t, v = .text t
  · obtain ⟨t,rfl⟩ := h
    exact .done
  · have hv (t : String) (ht : v = .text t) : False := h ⟨t,ht⟩
    rw [display.eq_2 v hv,displayed.eq_2 v hv]
    by_cases hw : v.Writable
    · rw [show Json.fault? false v = none from hw]
      exact .done
    · rw [fault?_of_not_writable hw]
      exact .refused hw

theorem display_iff {v : Value} : (∃ s, v.display = .ok s) ↔ v.Writable := by
  by_cases h : ∃ t, v = .text t
  · obtain ⟨t,rfl⟩ := h
    exact ⟨fun _ => rfl,fun _ => ⟨t,rfl⟩⟩
  · rw [display.eq_2 v fun t ht => h ⟨t,ht⟩,Writable]
    cases Json.fault? false v <;> simp

theorem asText_iff {v : Value} : (∃ s, v.asText = .ok s) ↔ v.Writable := by
  have json (v : Value) : (∃ s, v.json Json.compact = .ok s) ↔ v.Writable := by
    unfold Value.json Writable
    cases Json.fault? false v <;> simp
  cases v with
  | list xs => exact json _
  | object es => exact json _
  | scalar a =>
    cases a with
    | int i =>
      rw [writable_int]
      change (∃ s, intText i = .ok s) ↔ _
      unfold intText
      split <;> simp_all
    | _ => exact ⟨fun _ => rfl,fun _ => ⟨_,rfl⟩⟩

theorem asText_error {v : Value} {f : Fault} (h : v.asText = .error f) :
    f = .invalid Json.tooManyDigitsToWrite := by
  cases v with
  | list xs => exact ((told_json _ _).of_error h).1
  | object es => exact ((told_json _ _).of_error h).1
  | scalar a =>
    cases a with
    | int i =>
      change intText i = .error f at h
      unfold intText at h
      split at h <;> cases h
      rfl
    | _ => cases h

end Value

namespace Json

theorem writable_readNumber {c next : Cursor} {v : Value} (h : readNumber c = .ok (v,next)) :
    v.Writable := by
  unfold readNumber at h
  simp only at h
  split at h
  · cases h
  · rename_i n _
    split at h
    · split at h
      · cases h
      · rename_i hlong
        have hlt : Text.digitsToNat n.whole < writtenLimit :=
          Nat.lt_of_lt_of_le (Text.digitsToNat_lt n.whole) (tenTo_mono (Nat.not_lt.1 hlong))
        cases h
        rw [Value.writable_int]
        split <;> simpa using hlt
    · cases h
      rfl

theorem writable_readWord {c next : Cursor} {v : Value} (h : readWord? c = some (v,next)) :
    v.Writable := by
  unfold readWord? at h
  obtain ⟨w,hw,he⟩ := Option.map_eq_some_iff.1 h
  cases he
  have hall : ∀ w ∈ words, w.2.Writable := by simp [words,Value.Writable,fault?,scalarFault?]
  exact hall w (List.mem_of_find?_eq_some hw)

/-- A property of values that everything has that is read from a document: the leaves that are read
have it, and so does what is made of values that have it. The names in an object are distinct. -/
structure ReadClosed (P : Value → Prop) : Prop where
  text : ∀ s, P (.text s)
  word : ∀ {c next : Cursor} {v : Value}, readWord? c = some (v,next) → P v
  number : ∀ {c next : Cursor} {v : Value}, readNumber c = .ok (v,next) → P v
  list : ∀ {xs : List Value}, (∀ x ∈ xs, P x) → P (.list xs)
  object : ∀ {es : Entries Value}, es.keys.Nodup → (∀ e ∈ es, P e.2) → P (.object es)

namespace ReadClosed

variable {P : Value → Prop} (h : ReadClosed P)

include h

mutual

theorem readValue {depth : Nat} {next : Cursor} {v : Value} :
    ∀ {fuel : Nat} {c : Cursor}, Json.readValue fuel depth c = .ok (v,next) → P v
  | 0, c, hv => by simp [Json.readValue] at hv
  | fuel + 1, c, hv => by
    unfold Json.readValue at hv
    split at hv
    · split at hv
      · cases hv
        exact h.text _
      · cases hv
    · split at hv
      · cases hv
      · dsimp only at hv
        split at hv
        · cases hv
          exact h.object List.nodup_nil (by simp)
        · exact readEntries hv List.nodup_nil (by simp)
    · split at hv
      · cases hv
      · dsimp only at hv
        split at hv
        · cases hv
          exact h.list (by simp)
        · exact readItems hv (by simp)
    · split at hv
      · rename_i r hr
        cases hv
        exact h.word hr
      · exact h.number hv

theorem readItems {depth : Nat} {next : Cursor} {v : Value} :
    ∀ {fuel : Nat} {done : List Value} {c : Cursor},
      Json.readItems fuel depth done c = .ok (v,next) → (∀ x ∈ done, P x) → P v
  | 0, done, c, hv, _ => by simp [Json.readItems] at hv
  | fuel + 1, done, c, hv, hdone => by
    unfold Json.readItems at hv
    split at hv
    · cases hv
    · rename_i x after hx
      have hx := readValue hx
      dsimp only at hv
      split at hv
      · cases hv
        refine h.list ?_
        simpa [or_imp,forall_and] using ⟨hdone,hx⟩
      · exact readItems hv (by simpa using ⟨hx,hdone⟩)
      · cases hv

/-- A repeated name gets its last value, so names stay distinct. -/
theorem readEntries {depth : Nat} {next : Cursor} {v : Value} :
    ∀ {fuel : Nat} {done : Entries Value} {c : Cursor},
      Json.readEntries fuel depth done c = .ok (v,next) → done.keys.Nodup →
      (∀ e ∈ done, P e.2) → P v
  | 0, done, c, hv, _, _ => by simp [Json.readEntries] at hv
  | fuel + 1, done, c, hv, hd, hdone => by
    have hput {k : String} {x : Value} (hx : P x) : ∀ e ∈ Entries.put done k x, P e.2 := by
      intro e he
      rcases Entries.mem_put e he with he | rfl
      · exact hdone e he
      · exact hx
    unfold Json.readEntries at hv
    split at hv
    · split at hv
      · cases hv
      · dsimp only at hv
        split at hv
        · split at hv
          · cases hv
          · rename_i x after hx
            have hx := readValue hx
            split at hv
            · cases hv
              exact h.object (Entries.nodup_put hd _ _) (hput hx)
            · exact readEntries hv (Entries.nodup_put hd _ _) (hput hx)
            · cases hv
        · cases hv
    · cases hv

end

theorem parse {s : String} {v : Value} (hv : Json.parse s = .ok v) : P v := by
  unfold Json.parse at hv
  dsimp only at hv
  split at hv
  · cases hv
  · split at hv
    · cases hv
    · rename_i x after hx
      split at hv
      · cases hv
        exact h.readValue hx
      · cases hv

end ReadClosed

theorem readClosed_writable : ReadClosed Value.Writable where
  text := Value.writable_text
  word := writable_readWord
  number := writable_readNumber
  list := Value.writable_list.2
  object _ := Value.writable_object.2

/-- What is read from a document can be written again. -/
theorem writable_parse {s : String} {v : Value} (h : parse s = .ok v) : v.Writable :=
  readClosed_writable.parse h

end Json

end StepGraph
