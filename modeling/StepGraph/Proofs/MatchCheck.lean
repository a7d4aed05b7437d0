import StepGraph.Ai.Match
import StepGraph.Proofs.Exec
import StepGraph.Proofs.Writable

/-!
The check of a named place. A place stays if its candidate has every repeated field; otherwise it
moves to the first candidate that has all of them, or all but one. It never gets worse by that, and
checking it again leaves it where it is. A field that is blank on both sides counts as repeated, so
a move rests on a field that says something only while few of the fields are blank.
-/
namespace StepGraph.Match

open Text Attempt Value

variable {result out fields : Entries Value} {candidates : List Value} {candidate : Value}
  {keys : List String} {least i j : Nat} {place : Int} {f : Fault}

def fieldText (v : Value) : String := trim (lower (v.orElse (.text "")).displayed)

def HasField (fields : Entries Value) (candidate : Value) (key : String) : Prop :=
  fieldText (candidate.field key) = fieldText ((fields.get? key).getD .null)

instance (fields : Entries Value) (candidate : Value) (key : String) :
    Decidable (HasField fields candidate key) := inferInstanceAs (Decidable (_ = _))

/-- In how many keys a candidate agrees; one that is no object agrees in none. -/
def score (fields : Entries Value) (keys : List String) (candidate : Value) : Nat :=
  if candidate.isObject then keys.countP fun k => HasField fields candidate k else 0

def scoreAt (fields : Entries Value) (keys : List String) (candidates : List Value) (i : Nat) :
    Nat := score fields keys (candidates.getD i .null)

theorem score_le (fields : Entries Value) (keys : List String) (candidate : Value) :
    score fields keys candidate ≤ keys.length := by
  unfold score
  split
  · exact List.countP_le_length
  · exact Nat.zero_le _

theorem told_normal (v : Value) : Told v.Writable (fieldText v) (normal v) := by
  have hv : v.Writable → (v.orElse (.text "")).Writable := fun h => h.orElse (writable_text "")
  exact ((told_display _).mono hv).bind .done

def Comparable (fields : Entries Value) (candidate : Value) : Prop :=
  candidate.Writable ∧ (Value.object fields).Writable

theorem told_agrees (candidate : Value) (fields : Entries Value) (key : String) :
    Told (Comparable fields candidate) (decide (HasField fields candidate key))
      (agrees candidate fields key) := by
  have hfield : Comparable fields candidate → (candidate.field key).Writable :=
    fun h => writable_hereditary.field h.1 key
  have hgiven : Comparable fields candidate → ((fields.get? key).getD .null).Writable :=
    fun h => writable_hereditary.field h.2 key
  exact ((told_normal _).mono hfield).bind (((told_normal _).mono hgiven).bind .done)

theorem told_agreement (fields : Entries Value) (keys : List String) (candidate : Value) :
    Told (Comparable fields candidate) (score fields keys candidate)
      (agreement fields keys candidate) := by
  unfold agreement score
  split
  · have hcount : keys.countP (fun k => HasField fields candidate k) =
        ((keys.map fun k => decide (HasField fields candidate k)).filter id).length := by
      simp [List.countP_eq_length_filter,List.filter_map]
    rw [hcount]
    exact (Told.mapM fun k _ => told_agrees candidate fields k).bind .done
  · exact .done

structure First (m : Nat → Nat) (size least j : Nat) : Prop where
  inRange : j < size
  reaches : least ≤ m j
  before : ∀ k < j, m k < least

theorem First.zero {m : Nat → Nat} {size : Nat} (hs : 0 < size) (h : least ≤ m 0) :
    First m size least 0 := ⟨hs,h,fun _ hk => absurd hk (Nat.not_lt_zero _)⟩

theorem First.succ {m : Nat → Nat} {size : Nat} (h : First (fun k => m (k + 1)) size least j)
    (h₀ : m 0 < least) : First m (size + 1) least (j + 1) where
  inRange := Nat.succ_lt_succ h.inRange
  reaches := h.reaches
  before k hk := by
    cases k with
    | zero => exact h₀
    | succ k => exact h.before k (Nat.lt_of_succ_lt_succ hk)

theorem firstAgreeing_some {start found : Nat}
    (h : firstAgreeing fields keys least start candidates = .ok (some found)) :
    ∃ j, found = start + j ∧ First (scoreAt fields keys candidates) candidates.length least j ∧
      agreement fields keys (candidates.getD j .null) = .ok (scoreAt fields keys candidates j) := by
  induction candidates generalizing start with
  | nil => cases h
  | cons c rest ih =>
    obtain ⟨n,hn,h⟩ := eq_ok_of_bind h
    have hscore := (told_agreement fields keys c).eq_of_ok hn
    subst hscore
    by_cases hc : least ≤ score fields keys c
    · rw [if_pos hc] at h
      cases h
      exact ⟨0,rfl,.zero (Nat.succ_pos _) hc,hn⟩
    · rw [if_neg hc] at h
      obtain ⟨j,rfl,hj,hcount⟩ := ih h
      exact ⟨j + 1,by omega,.succ hj (Nat.not_le.1 hc),hcount⟩

theorem firstAgreeing_none {start : Nat}
    (h : firstAgreeing fields keys least start candidates = .ok none) :
    ∀ k < candidates.length, scoreAt fields keys candidates k < least := by
  induction candidates generalizing start with
  | nil => simp
  | cons c rest ih =>
    obtain ⟨n,hn,h⟩ := eq_ok_of_bind h
    have hscore := (told_agreement fields keys c).eq_of_ok hn
    subst hscore
    by_cases hc : least ≤ score fields keys c
    · rw [if_pos hc] at h
      cases h
    · rw [if_neg hc] at h
      intro k hk
      cases k with
      | zero => exact Nat.not_le.1 hc
      | succ k => exact ih h k (Nat.lt_of_succ_lt_succ hk)

theorem sayable_firstAgreeing (start : Nat) :
    Sayable (∀ c ∈ candidates, Comparable fields c)
      (firstAgreeing fields keys least start candidates) := by
  induction candidates generalizing start with
  | nil => exact .ok none
  | cons c rest ih =>
    have hc := (told_agreement fields keys c).sayable.mono
      fun (h : ∀ d ∈ c :: rest, Comparable fields d) => h c List.mem_cons_self
    apply hc.bind
    intro n _
    split
    · exact .ok _
    · exact (ih (start + 1)).mono fun h d hd => h d (List.mem_cons_of_mem c hd)

def index? : Value → Option Int
  | .int i => some i
  | .bool b => some (if b then 1 else 0)
  | _ => none

def indexOf? (result : Entries Value) : Option Int := (result.get? "matchIndex").bind index?

theorem indexOf?_int (h : result.get? "matchIndex" = some (.int place)) :
    indexOf? result = some place := by
  simp [indexOf?,h,index?]

structure Moved (result : Entries Value) (j : Nat) (out : Entries Value) : Prop where
  place : out.get? "matchIndex" = some (.int j)
  reason : ∃ t, out.get? "reason" = some (.text t)
  rest : ∀ k, k ≠ "matchIndex" → k ≠ "reason" → out.get? k = result.get? k

theorem Moved.index {result out : Entries Value} (h : Moved result j out) :
    indexOf? out = some (j : Int) := indexOf?_int h.place

theorem corrected_moved {how : String} (h : corrected result place j how = .ok out) :
    Moved result j out := by
  obtain ⟨reason,-,h⟩ := eq_ok_of_bind h
  cases h
  constructor
  · rw [Entries.get?_put_of_ne (by decide),Entries.get?_put_self]
    rfl
  · exact ⟨_,Entries.get?_put_self _ _ _⟩
  · intro k hplace hreason
    rw [Entries.get?_put_of_ne hreason,Entries.get?_put_of_ne hplace]

/-- What a check has to write of a reply can be written: the reason and the repeated fields. -/
structure Tellable (result : Entries Value) : Prop where
  reason : ∀ v, result.get? "reason" = some v → v.Writable
  fields : ∀ v, result.get? "matchedFields" = some v → v.Writable

theorem tellable_of_writable {result : Entries Value} (h : (Value.object result).Writable) :
    Tellable result where
  reason _ hv := writable_object.1 h _ (Entries.mem_of_get? hv)
  fields _ hv := writable_object.1 h _ (Entries.mem_of_get? hv)

theorem sayable_reasonText (result : Entries Value) :
    Sayable (Tellable result) (reasonText result) := by
  refine (told_display _).sayable.mono fun h => Writable.orElse ?_ (writable_text "")
  cases hr : result.get? "reason" with
  | none => rfl
  | some v => exact h.reason v hr

theorem sayable_corrected (result : Entries Value) (place : Int) (found : Nat) (how : String) :
    Sayable (Tellable result) (corrected result place found how) :=
  (sayable_reasonText result).bind fun _ _ => .ok _

theorem corrected_text {t : String} (h : result.get? "reason" = some (.text t)) (place : Int)
    (found : Nat) (how : String) : ∃ out, corrected result place found how = .ok out := by
  have hreason : ∃ s, reasonText result = .ok s := by
    unfold reasonText
    rw [h,Option.getD_some]
    unfold Value.orElse View.orElse
    split
    · exact ⟨t,rfl⟩
    · exact ⟨"",rfl⟩
  obtain ⟨s,hs⟩ := hreason
  unfold corrected
  rw [hs]
  exact ⟨_,rfl⟩

/-- How the place `j` that a check leaves stands to the place `i` that was named, by the numbers of
keys in which the candidates agree, of `n`. -/
structure Settles (m : Nat → Nat) (size n i j : Nat) : Prop where
  inRange : j < size
  notWorse : m i ≤ m j
  full : m i = n → j = i
  greatest : (∃ k < size, max 1 (n - 1) ≤ m k) → ∀ k < size, m k ≤ m j
  kept : (∀ k < size, m k < max 1 (n - 1)) → j = i
  moved : j ≠ i → max 1 (n - 1) ≤ m j ∧ ∀ k < j, m k < m j

section Place

variable {m : Nat → Nat} {size n : Nat}

theorem settles_full (hi : i < size) (hm : ∀ k, m k ≤ n) (h : m i = n) :
    Settles m size n i i where
  inRange := hi
  notWorse := Nat.le_refl _
  full _ := rfl
  greatest _ k _ := h ▸ hm k
  kept _ := rfl
  moved h := absurd rfl h

theorem settles_exact (hm : ∀ k, m k ≤ n) (h : m i ≠ n) (hj : First m size n j) (hn : 0 < n) :
    Settles m size n i j where
  inRange := hj.inRange
  notWorse := Nat.le_trans (hm i) hj.reaches
  full h' := absurd h' h
  greatest _ k _ := Nat.le_trans (hm k) hj.reaches
  kept h' := by
    have h₁ := h' j hj.inRange
    have h₂ := hj.reaches
    omega
  moved _ := by
    refine ⟨by have := hj.reaches; omega,?_⟩
    intro k hk
    exact Nat.lt_of_lt_of_le (hj.before k hk) hj.reaches

theorem settles_partial (hi : i < size) (hexact : ∀ k < size, m k < n)
    (hj : First m size (max 1 (n - 1)) j) : Settles m size n i j where
  inRange := hj.inRange
  notWorse := by
    have h₁ := hexact i hi
    have h₂ := hj.reaches
    omega
  full h := absurd h (Nat.ne_of_lt (hexact i hi))
  greatest _ k hk := by
    have h₁ := hexact k hk
    have h₂ := hj.reaches
    omega
  kept h := absurd (h j hj.inRange) (Nat.not_lt.2 hj.reaches)
  moved _ := ⟨hj.reaches,fun k hk => Nat.lt_of_lt_of_le (hj.before k hk) hj.reaches⟩

theorem settles_kept (hi : i < size) (h : ∀ k < size, m k < max 1 (n - 1)) :
    Settles m size n i i where
  inRange := hi
  notWorse := Nat.le_refl _
  full _ := rfl
  greatest h' := by
    obtain ⟨k,hk,hn⟩ := h'
    exact absurd (h k hk) (Nat.not_lt.2 hn)
  kept _ := rfl
  moved h' := absurd rfl h'

end Place

theorem relocate_inside (hi : i < candidates.length) :
    relocate result fields candidates keys i =
      (agreement fields keys (candidates.getD i .null) >>= fun here =>
        if here == keys.length then .ok result else search result fields candidates keys i) := by
  have h : ¬((i : Int) < 0 || (candidates.length : Int) ≤ i) = true := by
    simp only [Bool.or_eq_true,decide_eq_true_eq]
    omega
  unfold relocate
  rw [if_neg h]
  rfl

theorem relocate_counted (hi : i < candidates.length)
    (h : agreement fields keys (candidates.getD i .null) =
      .ok (scoreAt fields keys candidates i)) :
    relocate result fields candidates keys i =
      if scoreAt fields keys candidates i = keys.length then .ok result
      else search result fields candidates keys i := by
  rw [relocate_inside hi,h]
  by_cases hm : scoreAt fields keys candidates i = keys.length <;>
    simp [bind,Except.bind,hm]

/-- How a search ends: at the first full candidate, else at the first one that is nearly full, else
nowhere. -/
inductive Searched (result fields : Entries Value) (candidates : List Value) (keys : List String)
    (place : Int) (out : Entries Value) : Prop
  | exact (j : Nat) (hj : First (scoreAt fields keys candidates) candidates.length keys.length j)
      (hc : agreement fields keys (candidates.getD j .null) =
        .ok (scoreAt fields keys candidates j))
      (ho : Moved result j out)
  | nearly (j : Nat)
      (hnone : ∀ k < candidates.length, scoreAt fields keys candidates k < keys.length)
      (hj : First (scoreAt fields keys candidates) candidates.length (max 1 (keys.length - 1)) j)
      (hc : agreement fields keys (candidates.getD j .null) =
        .ok (scoreAt fields keys candidates j))
      (ho : Moved result j out)
      (hagain : ∀ (later : Entries Value) (place : Int), search later fields candidates keys place =
        corrected later place j " via partial match")
  | nowhere (hnone : ∀ k < candidates.length,
        scoreAt fields keys candidates k < max 1 (keys.length - 1))
      (ho : out = result)

theorem search_ok (h : search result fields candidates keys place = .ok out) :
    Searched result fields candidates keys place out := by
  obtain ⟨found,hfound,h⟩ := eq_ok_of_bind h
  cases found with
  | some j =>
    obtain ⟨j,rfl,hj,hc⟩ := firstAgreeing_some hfound
    rw [Nat.zero_add] at h
    exact .exact j hj hc (corrected_moved h)
  | none =>
    obtain ⟨near,hnear,h⟩ := eq_ok_of_bind h
    cases near with
    | some j =>
      obtain ⟨j,rfl,hj,hc⟩ := firstAgreeing_some hnear
      rw [Nat.zero_add] at h hnear
      refine .nearly j (firstAgreeing_none hfound) hj hc (corrected_moved h) ?_
      intro later place
      unfold search
      rw [hfound]
      simp only [bind,Except.bind]
      rw [hnear]
    | none =>
      cases h
      exact .nowhere (firstAgreeing_none hnear) rfl

theorem relocate_ok (hk : keys ≠ []) (hi : i < candidates.length)
    (hplace : indexOf? result = some (i : Int))
    (h : relocate result fields candidates keys i = .ok out) :
    ∃ (j : Nat) (again : Entries Value), indexOf? out = some (j : Int) ∧
      out.get? "matchedFields" = result.get? "matchedFields" ∧
      Settles (scoreAt fields keys candidates) candidates.length keys.length i j ∧
      relocate out fields candidates keys j = .ok again ∧ indexOf? again = some (j : Int) := by
  have hm (k : Nat) : scoreAt fields keys candidates k ≤ keys.length := score_le _ _ _
  have hn : 0 < keys.length := List.length_pos_iff.2 hk
  have hgiven := h
  rw [relocate_inside hi] at h
  obtain ⟨here,hhere,h⟩ := eq_ok_of_bind h
  have hscore : here = scoreAt fields keys candidates i :=
    (told_agreement fields keys _).eq_of_ok hhere
  subst hscore
  by_cases hfull : scoreAt fields keys candidates i = keys.length
  · rw [if_pos (by simpa using hfull)] at h
    cases h
    exact ⟨i,result,hplace,rfl,settles_full hi hm hfull,hgiven,hplace⟩
  rw [if_neg (by simpa using hfull)] at h
  cases search_ok h with
  | exact j hj hc ho =>
    have hstays : relocate out fields candidates keys j = .ok out := by
      rw [relocate_counted hj.inRange hc,if_pos (Nat.le_antisymm (hm j) hj.reaches)]
    exact ⟨j,out,ho.index,ho.rest _ (by decide) (by decide),settles_exact hm hfull hj hn,hstays,
      ho.index⟩
  | nearly j hnone hj hc ho hagain =>
    -- The second check searches too, and finds the same place: only the reason grows.
    obtain ⟨t,ht⟩ := ho.reason
    obtain ⟨again,hcorrected⟩ := corrected_text ht j j " via partial match"
    have hstays : relocate out fields candidates keys j = .ok again := by
      rw [relocate_counted hj.inRange hc,if_neg (Nat.ne_of_lt (hnone j hj.inRange)),hagain,
        hcorrected]
    exact ⟨j,again,ho.index,ho.rest _ (by decide) (by decide),settles_partial hi hnone hj,hstays,
      (corrected_moved hcorrected).index⟩
  | nowhere hnone ho =>
    subst ho
    exact ⟨i,out,hplace,rfl,settles_kept hi hnone,hgiven,hplace⟩

theorem getD_writable {i : Nat} (h : ∀ c ∈ candidates, c.Writable) :
    (candidates.getD i .null).Writable := by
  by_cases hi : i < candidates.length
  · simpa [hi] using h _ (List.getElem_mem hi)
  · have hnull : Value.null.Writable := rfl
    simpa [hi] using hnull

theorem sayable_search (place : Int) :
    Sayable (Tellable result ∧ ∀ c ∈ candidates, Comparable fields c)
      (search result fields candidates keys place) := by
  apply ((sayable_firstAgreeing 0).mono And.right).bind
  intro found _
  split
  · exact (sayable_corrected _ _ _ _).mono And.left
  · apply ((sayable_firstAgreeing 0).mono And.right).bind
    intro near _
    split
    · exact (sayable_corrected _ _ _ _).mono And.left
    · exact .ok result

theorem sayable_relocate (hf : Tellable result → (Value.object fields).Writable)
    (place : Int) : Sayable (Tellable result ∧ ∀ c ∈ candidates, c.Writable)
      (relocate result fields candidates keys place) := by
  unfold relocate
  split
  · exact .ok result
  · apply ((told_agreement _ _ _).sayable.mono fun h => ⟨getD_writable h.2,hf h.1⟩).bind
    intro here _
    split
    · exact .ok result
    · exact (sayable_search place).mono fun h => ⟨h.1,fun c hc => ⟨h.2 c hc,hf h.1⟩⟩

theorem verify_placed (h : indexOf? result = some place) :
    verify result candidates keys =
      match result.get? "matchedFields" with
      | some (.object fields) =>
        if keys.isEmpty then .ok result else relocate result fields candidates keys place
      | _ => .ok result := by
  obtain ⟨v,hv,hi⟩ := Option.bind_eq_some_iff.1 h
  unfold verify
  rw [hv]
  cases result.get? "matchedFields" with
  | none => rfl
  | some given =>
    cases given with
    | object fields =>
      unfold index? at hi
      split at hi <;> cases hi <;> rfl
    | _ => rfl

/-- Only a number that cannot be written ends a check. -/
theorem sayable_verify (h : indexOf? result = some place) :
    Sayable (Tellable result ∧ ∀ c ∈ candidates, c.Writable)
      (verify result candidates keys) := by
  rw [verify_placed h]
  split
  · rename_i fields hf
    split
    · exact .ok result
    · exact sayable_relocate (fun hr => hr.fields _ hf) place
  · exact .ok result

/-- A place is checked if there is a candidate at it, and fields and keys to check it by. -/
def Checkable (result fields : Entries Value) (candidates : List Value) (keys : List String)
    (i : Nat) : Prop :=
  result.get? "matchedFields" = some (.object fields) ∧ keys ≠ [] ∧ i < candidates.length

theorem verify_checkable (h : indexOf? result = some (i : Int))
    (hc : Checkable result fields candidates keys i) :
    verify result candidates keys = relocate result fields candidates keys i := by
  obtain ⟨hf,hk,-⟩ := hc
  rw [verify_placed h,hf]
  simp [hk]

theorem verify_unchecked (h : indexOf? result = some place)
    (hc : ∀ fields i, place = (i : Nat) → ¬Checkable result fields candidates keys i) :
    verify result candidates keys = .ok result := by
  rw [verify_placed h]
  split
  · rename_i fields hf
    by_cases hk : keys = []
    · simp [hk]
    · by_cases hin : 0 ≤ place ∧ place < candidates.length
      · obtain ⟨i,rfl⟩ := Int.eq_ofNat_of_zero_le hin.1
        exact absurd ⟨hf,hk,by omega⟩ (hc fields i rfl)
      · have hout : place < 0 ∨ (candidates.length : Int) ≤ place := by omega
        simp [hk,relocate,hout]
        rfl
  · rfl

/-- A check leaves every place alone that it has nothing to check by. Any other place it leaves at a
candidate that agrees at least as well, the first of the best if one of them is good enough, and
checking again leaves it there; unless some value cannot be written. -/
theorem verify_settles (h : indexOf? result = some place) :
    ((∀ fields i, place = (i : Nat) → ¬Checkable result fields candidates keys i) →
      verify result candidates keys = .ok result) ∧
    ∀ fields i, place = (i : Nat) → Checkable result fields candidates keys i →
      (verify result candidates keys = .error (.invalid Json.tooManyDigitsToWrite) ∧
        ∃ v ∈ .object result :: candidates, ¬v.Writable) ∨
      ∃ (j : Nat) (out again : Entries Value),
        verify result candidates keys = .ok out ∧ indexOf? out = some (j : Int) ∧
        Settles (scoreAt fields keys candidates) candidates.length keys.length i j ∧
        verify out candidates keys = .ok again ∧ indexOf? again = some (j : Int) := by
  refine ⟨verify_unchecked h,?_⟩
  intro fields i hi hc
  subst hi
  cases hv : verify result candidates keys with
  | error f =>
    obtain ⟨rfl,hw⟩ := sayable_verify h f hv
    refine .inl ⟨rfl,?_⟩
    by_cases hr : (Value.object result).Writable
    · have hcs : ∃ c ∈ candidates, ¬c.Writable := by simpa [tellable_of_writable hr] using hw
      obtain ⟨c,hc,hw⟩ := hcs
      exact ⟨c,List.mem_cons_of_mem _ hc,hw⟩
    · exact ⟨_,List.mem_cons_self,hr⟩
  | ok out =>
    -- What was checked can be checked again: the repeated fields are still there.
    rw [verify_checkable h hc] at hv
    obtain ⟨j,again,hj,hf,hs,hagain,hindex⟩ := relocate_ok hc.2.1 hc.2.2 h hv
    have hout : Checkable out fields candidates keys j := ⟨hf.trans hc.1,hc.2.1,hs.inRange⟩
    exact .inr ⟨j,out,again,rfl,hj,hs,(verify_checkable hj hout).trans hagain,hindex⟩

def strayReply : Entries Value :=
  [("matchIndex",.int 0),("matchedFields",.object [("key",.text "B")])]

def strayCandidates : List Value :=
  [.object [("key",.text "A")],.object [("key",.text " b")]]

theorem verify_settles_stray :
    indexOf? strayReply = some 0 ∧
    Checkable strayReply [("key",.text "B")] strayCandidates ["key"] 0 ∧
    ∃ out, verify strayReply strayCandidates ["key"] = .ok out ∧ indexOf? out = some 1 := by
  have hindex : indexOf? strayReply = some 0 := rfl
  have hchecked : Checkable strayReply [("key",.text "B")] strayCandidates ["key"] 0 :=
    ⟨rfl,by decide,by decide⟩
  refine ⟨hindex,hchecked,?_⟩
  rcases (verify_settles hindex).2 _ 0 rfl hchecked with ⟨-,hw⟩ | ⟨j,out,again,hout,hj,hs,-,-⟩
  · have hall : ∀ v ∈ Value.object strayReply :: strayCandidates, v.Writable := by decide +kernel
    obtain ⟨v,hv,hw⟩ := hw
    exact absurd (hall v hv) hw
  · have hbest := hs.greatest ⟨1,by decide,by decide +kernel⟩ 1 (by decide)
    have hworse : ¬scoreAt [("key",.text "B")] ["key"] strayCandidates 1 ≤
        scoreAt [("key",.text "B")] ["key"] strayCandidates 0 := by decide +kernel
    have hrange : j < 2 := hs.inRange
    cases j with
    | zero => exact absurd hbest hworse
    | succ j =>
      obtain rfl : j = 0 := by omega
      exact ⟨out,hout,hj⟩

/-- A key by which a candidate is told to be the one that is meant: it says something, and what it
says is repeated. -/
def Evident (fields : Entries Value) (candidate : Value) (key : String) : Prop :=
  candidate.isObject = true ∧ HasField fields candidate key ∧ fieldText (candidate.field key) ≠ ""

def blanks (fields : Entries Value) (keys : List String) : Nat :=
  keys.countP fun k => fieldText ((fields.get? k).getD .null) = ""

theorem evident_of_score (h : blanks fields keys < score fields keys candidate) :
    ∃ k ∈ keys, Evident fields candidate k := by
  unfold score at h
  split at h
  · rename_i hobject
    by_cases hev : ∃ k ∈ keys, Evident fields candidate k
    · exact hev
    · have hle : keys.countP (fun k => HasField fields candidate k) ≤ blanks fields keys := by
        apply List.countP_mono_left
        intro k hk hsame
        have hsame := of_decide_eq_true hsame
        by_cases hblank : fieldText (candidate.field k) = ""
        · exact decide_eq_true (hsame.symm.trans hblank)
        · exact absurd ⟨k,hk,hobject,hsame,hblank⟩ hev
      exact absurd h (Nat.not_lt.2 hle)
  · exact absurd h (Nat.not_lt_zero _)

def Moves (result : Entries Value) (candidates : List Value) (keys : List String) (i j : Int) :
    Prop :=
  indexOf? result = some i ∧
    ∃ out, verify result candidates keys = .ok out ∧ indexOf? out = some j ∧ j ≠ i

/-- A move starts at a place that was checked, and goes to one with enough agreement. -/
theorem Moves.reaches {i j : Int} (h : Moves result candidates keys i j) :
    ∃ fields, result.get? "matchedFields" = some (.object fields) ∧
      max 1 (keys.length - 1) ≤ scoreAt fields keys candidates j.toNat := by
  obtain ⟨hi,out,hout,hj,hne⟩ := h
  by_cases hc : ∃ fields, ∃ k : Nat, i = k ∧ Checkable result fields candidates keys k
  · obtain ⟨fields,k,rfl,hc⟩ := hc
    refine ⟨fields,hc.1,?_⟩
    rcases (verify_settles hi).2 fields k rfl hc with ⟨he,-⟩ | ⟨l,out',again,hout',hl,hs,-,-⟩
    · rw [he] at hout
      cases hout
    · rw [hout'] at hout
      cases hout
      obtain rfl : (l : Int) = j := Option.some.inj (hl.symm.trans hj)
      exact (hs.moved (by omega)).1
  · have hstays : verify result candidates keys = .ok result :=
      verify_unchecked hi fun fields k hk hchecked => hc ⟨fields,k,hk,hchecked⟩
    rw [hstays] at hout
    cases hout
    exact absurd (Option.some.inj (hj.symm.trans hi)) hne

def blankRecord (keys : List String) : Value := .object (keys.map fun k => (k,.text " "))

theorem identifiers_length (candidate : Value) : (identifiers candidate).length ≤ keyCount := by
  unfold identifiers
  exact List.length_take_le _ _

theorem identifiers_blankRecord (h : keys.length ≤ keyCount) :
    identifiers (blankRecord keys) = keys := by
  have hfilled : (blankRecord keys).entries.filter (fun e => holdsText e.2) =
      keys.map fun k => (k,.text " ") := by
    apply List.filter_eq_self.2
    intro e he
    obtain ⟨k,-,rfl⟩ := List.mem_map.1 he
    rfl
  have hkeys : (keys.map fun k => (k,Value.text " ")).map Prod.fst = keys := by
    simp [Function.comp_def]
  unfold identifiers
  rw [hfilled,hkeys,List.take_of_length_le h]

theorem field_blankRecord {key : String} (h : key ∈ keys) :
    (blankRecord keys).field key = .text " " := by
  have hget : Entries.get? (keys.map fun k => (k,Value.text " ")) key = some (.text " ") := by
    induction keys with
    | nil => cases h
    | cons k rest ih =>
      by_cases hk : key = k
      · simp [Entries.get?,hk]
      · simpa [Entries.get?,hk] using ih (by simpa [hk] using h)
  change (Entries.get? _ key).getD _ = _
  rw [hget]
  rfl

theorem fieldText_blank : fieldText (.text " ") = "" := by decide +kernel

theorem score_blankRecord (fields : Entries Value) (keys : List String) :
    score fields keys (blankRecord keys) = blanks fields keys := by
  have hsame : ∀ k ∈ keys, decide (HasField fields (blankRecord keys) k) = true ↔
      decide (fieldText ((fields.get? k).getD .null) = "") = true := by
    intro k hk
    rw [decide_eq_true_iff,decide_eq_true_iff]
    unfold HasField
    rw [field_blankRecord hk,fieldText_blank]
    exact eq_comm
  exact List.countP_congr hsame

theorem writable_blankRecord (keys : List String) : (blankRecord keys).Writable := by
  apply writable_object.2
  intro e he
  obtain ⟨k,-,rfl⟩ := List.mem_map.1 he
  exact writable_text " "

theorem moves_blankRecord (hf : (Value.object fields).Writable)
    (h : max 1 (keys.length - 1) ≤ blanks fields keys) :
    Moves [("matchIndex",.int 1),("matchedFields",.object fields)] [blankRecord keys,.null] keys
      1 0 := by
  have hk : keys ≠ [] := by
    rintro rfl
    exact absurd h (Nat.not_le.2 (Nat.lt_succ_self 0))
  have hc : Checkable [("matchIndex",.int 1),("matchedFields",.object fields)] fields
      [blankRecord keys,.null] keys 1 := ⟨rfl,hk,Nat.lt_succ_self 1⟩
  refine ⟨rfl,?_⟩
  rcases (verify_settles rfl).2 fields 1 rfl hc with ⟨-,hw⟩ | ⟨j,out,again,hout,hj,hs,-,-⟩
  · obtain ⟨v,hv,hw⟩ := hw
    have hresult :
        (Value.object [("matchIndex",.int 1),("matchedFields",.object fields)]).Writable :=
      writable_object.2 (by simpa using ⟨writable_byte 1,hf⟩)
    have hall : ∀ v ∈ [.object [("matchIndex",.int 1),("matchedFields",.object fields)],
        blankRecord keys,.null], v.Writable := by
      simpa using ⟨hresult,writable_blankRecord keys,rfl⟩
    exact absurd (hall v hv) hw
  · have hfirst : scoreAt fields keys [blankRecord keys,.null] 0 = blanks fields keys :=
      score_blankRecord fields keys
    have hsecond : scoreAt fields keys [blankRecord keys,.null] 1 = 0 := rfl
    have hbest := hs.greatest ⟨0,Nat.two_pos,hfirst ▸ h⟩ 0 Nat.two_pos
    have hrange : j < 2 := hs.inRange
    have hzero : j = 0 := by
      by_cases h₁ : j = 1
      · subst h₁
        omega
      · omega
    subst hzero
    exact ⟨out,hout,hj,by decide⟩

/-- A move rests on a field that says something, whatever the candidates are, exactly if too few of
the keys are blank in the repeated fields. -/
theorem moves_evident_iff (hf : (Value.object fields).Writable) (first : Value) :
    (∀ (result : Entries Value) (candidates : List Value) (i j : Int),
      identifiers (candidates.headD .null) = identifiers first →
      result.get? "matchedFields" = some (.object fields) →
      Moves result candidates (identifiers first) i j →
      ∃ k ∈ identifiers first, Evident fields (candidates.getD j.toNat .null) k) ↔
    blanks fields (identifiers first) < max 1 ((identifiers first).length - 1) := by
  constructor
  · intro h
    by_cases hblanks : max 1 ((identifiers first).length - 1) ≤ blanks fields (identifiers first)
    · obtain ⟨k,hk,-,-,hword⟩ := h _ [blankRecord (identifiers first),.null] 1 0
        (identifiers_blankRecord (identifiers_length first)) rfl (moves_blankRecord hf hblanks)
      refine absurd ?_ hword
      change fieldText ((blankRecord _).field k) = ""
      rw [field_blankRecord hk,fieldText_blank]
    · omega
  · intro h result candidates i j _ hfields hmoves
    obtain ⟨given,hgiven,hreach⟩ := hmoves.reaches
    rw [hfields] at hgiven
    cases hgiven
    exact evident_of_score (Nat.lt_of_lt_of_le h hreach)

theorem moves_evident_iff_key : (Value.object [("key",.text "B")]).Writable ∧
    ∀ (result : Entries Value) (candidates : List Value) (i j : Int),
      identifiers (candidates.headD .null) = ["key"] →
      result.get? "matchedFields" = some (.object [("key",.text "B")]) →
      Moves result candidates ["key"] i j →
      ∃ k ∈ ["key"], Evident [("key",.text "B")] (candidates.getD j.toNat .null) k := by
  have hw : (Value.object [("key",.text "B")]).Writable := rfl
  exact ⟨hw,(moves_evident_iff hw (.object [("key",.text "A")])).2 (by decide +kernel)⟩

end StepGraph.Match
