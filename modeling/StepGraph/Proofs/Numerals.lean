import StepGraph.Proofs.Dialects
import StepGraph.Proofs.Doubles
import StepGraph.Proofs.LocalWrite
import StepGraph.Proofs.Writable
import StepGraph.Value.Cast

/-!
Numbers as texts. Each reader gets back the whole number that was printed: the reader of digits in
any script, that of dates, which knows the common digits only, and the cast that takes a number from
the front of a text; the reader of doubles gets the nearest double. A text is read as a double
exactly if it is a numeral: a sign, and a word for infinity or digits with a point and an exponent.
-/
namespace StepGraph

namespace Text

variable {c : Char} {cs : List Char}

theorem forall_mem_of_all {p : Char → Prop} [DecidablePred p]
    (h : cs.all (fun c => decide (p c)) = true) : ∀ c ∈ cs, p c :=
  fun c hc => of_decide_eq_true (List.all_eq_true.1 h c hc)

theorem toNat_of_isDigit (h : c.isDigit = true) : 48 ≤ c.toNat ∧ c.toNat ≤ 57 := by
  simp only [Char.isDigit,Bool.and_eq_true,decide_eq_true_eq,ge_iff_le,UInt32.le_iff_toNat_le] at h
  exact h

theorem digit?_of_isDigit (h : c.isDigit = true) : digit? c = some (c.toNat - '0'.toNat) := by
  obtain ⟨hlow,hhigh⟩ := toNat_of_isDigit h
  have hzero : (decide (0x30 ≤ c.toNat) && decide (c.toNat < 0x30 + 10)) = true := by
    simp only [Bool.and_eq_true,decide_eq_true_eq]
    omega
  have hfound : zeros.find? (fun z => decide (z ≤ c.toNat) && decide (c.toNat < z + 10)) =
      some 0x30 := List.find?_cons_of_pos hzero
  rw [digit?,hfound]
  rfl

theorem isDigit_of_isDigit (h : c.isDigit = true) : isDigit c = true := by
  unfold isDigit
  rw [digit?_of_isDigit h]
  rfl

theorem isBlank_of_isDigit (h : c.isDigit = true) : isBlank c = false :=
  not_isBlank (Bool.or_eq_true_iff.2 (.inl (isDigit_of_isDigit h)))

theorem digitsToNat_eq (h : ∀ c ∈ cs, c.isDigit = true) :
    digitsToNat cs = Nat.ofDigitChars 10 cs 0 := by
  have hfold (n : Nat) : cs.foldl (fun n c => 10 * n + (digit? c).getD 0) n =
      Nat.ofDigitChars 10 cs n := by
    induction cs generalizing n with
    | nil => rfl
    | cons c cs ih =>
      rw [List.foldl_cons,Nat.ofDigitChars_cons,digit?_of_isDigit (h c List.mem_cons_self),
        ih fun d hd => h d (List.mem_cons_of_mem c hd)]
      rfl
  exact hfold 0

theorem isDigit_of_mem_digits {n : Nat} (h : c ∈ Nat.toDigits 10 n) : c.isDigit = true :=
  Nat.isDigit_of_mem_toDigits (by decide) (by decide) h

theorem digitsToNat_digits (n : Nat) : digitsToNat (Nat.toDigits 10 n) = n := by
  rw [digitsToNat_eq fun c => isDigit_of_mem_digits]
  exact Nat.ofDigitChars_ten_toDigits

theorem head_dropBlanks {c : Char} {cs : List Char} (h : (dropBlanks cs).head? = some c) :
    isBlank c = false := by
  have hnot := List.head?_dropWhile_not isBlank cs
  rw [show cs.dropWhile isBlank = dropBlanks cs from rfl,h] at hnot
  simpa using hnot

theorem dropBlanks_front {front : List Char} (h : front <+: dropBlanks cs) :
    dropBlanks front = front := by
  cases front with
  | nil => rfl
  | cons c rest =>
    obtain ⟨behind,hbehind⟩ := h
    have hc : isBlank c = false := head_dropBlanks (by rw [← hbehind]; rfl)
    exact List.dropWhile_cons_of_neg (by simp [hc])

theorem dropBlanks_trim (s : String) : dropBlanks (trim s).toList = (trim s).toList := by
  rw [toList_trim]
  exact dropBlanks_front List.prefix_rfl

theorem dropBlanks_trim_reverse (s : String) :
    dropBlanks (trim s).toList.reverse = (trim s).toList.reverse := by
  have hfront : (trim s).toList.reverse <+: dropBlanks s.toList.reverse := by
    rw [← List.reverse_suffix,List.reverse_reverse,toList_trim]
    exact List.dropWhile_suffix _
  exact dropBlanks_front hfront

theorem trim_trim (s : String) : trim (trim s) = trim s := by
  refine String.toList_inj.1 ?_
  rw [toList_trim,dropBlanks_trim_reverse,List.reverse_reverse,dropBlanks_trim]

theorem toLower_of_class {p : Char → Bool} (hp : ∀ n < 91, 65 ≤ n → p (Char.ofNat n) = false)
    (h : p c = true) : c.toLower = c := by
  unfold Char.toLower
  rw [dif_neg]
  rintro ⟨hlow,hhigh⟩
  have hnone := hp c.toNat (Nat.lt_succ_of_le hhigh) hlow
  rw [Char.ofNat_toNat,h] at hnone
  cases hnone

theorem toLower_of_isDigit (h : isDigit c = true) : c.toLower = c :=
  toLower_of_class (by decide +kernel) h

theorem toLower_of_isBlank (h : isBlank c = true) : c.toLower = c :=
  toLower_of_class (by decide +kernel) h

end Text

namespace Decimal

variable {i : Int}

theorem toList_toString_int (i : Int) :
    (toString i).toList = (if i < 0 then ['-'] else []) ++ Nat.toDigits 10 i.natAbs := by
  rw [Int.toString_eq_repr,Int.repr_eq_if]
  split
  · rename_i h
    rw [if_neg (Int.not_lt.2 h),Nat.toList_repr,List.nil_append]
    congr 1
    omega
  · rename_i h
    rw [if_pos (Int.not_le.1 h),String.toList_append,Nat.toList_repr]
    congr 2
    omega

theorem all_isFigure_digits (n : Nat) : (Nat.toDigits 10 n).all Text.isFigure = true :=
  List.all_eq_true.2 fun _ hc =>
    Bool.or_eq_true_iff.2 (.inl (Text.isDigit_of_isDigit (Text.isDigit_of_mem_digits hc)))

theorem takeSign_toString (i : Int) :
    takeSign (toString i).toList = (decide (i < 0),Nat.toDigits 10 i.natAbs) := by
  rw [toList_toString_int]
  by_cases h : i < 0
  · rw [if_pos h,decide_eq_true h]
    rfl
  · rw [if_neg h,decide_eq_false h]
    exact takeSign_figures (all_isFigure_digits i.natAbs)

theorem mem_toString {c : Char} (h : c ∈ (toString i).toList) : c.isDigit = true ∨ c = '-' := by
  rw [toList_toString_int,List.mem_append] at h
  rcases h with h | h
  · split at h
    · exact .inr (List.mem_singleton.1 h)
    · cases h
  · exact .inl (Text.isDigit_of_mem_digits h)

theorem isBlank_toString (i : Int) : ∀ c ∈ (toString i).toList, Text.isBlank c = false := by
  intro c hc
  rcases mem_toString hc with h | rfl
  · exact Text.isBlank_of_isDigit h
  · decide

theorem trim_toString (i : Int) : Text.trim (toString i) = toString i :=
  Text.trim_eq_self (isBlank_toString i)

theorem takeWhile_digits (n : Nat) :
    (Nat.toDigits 10 n).takeWhile Text.isDigit = Nat.toDigits 10 n :=
  List.takeWhile_eq_self_iff.2 fun _ hc => Text.isDigit_of_isDigit (Text.isDigit_of_mem_digits hc)

theorem length_digits_le {n k : Nat} (hk : 0 < k) :
    (Nat.toDigits 10 n).length ≤ k ↔ n < tenTo k := Nat.length_toDigits_le_iff (by decide) hk

theorem length_digits_le_maxDigits {n : Nat} :
    (Nat.toDigits 10 n).length ≤ maxDigits ↔ n < Json.writtenLimit := length_digits_le (by decide)

variable {c : Char}

theorem isDigit_shortest {d : Dyadic} (h : c ∈ d.shortest.digits) : c.isDigit = true := by
  unfold Dyadic.shortest at h
  split at h
  · rw [List.mem_singleton.1 h]
    decide
  · have hsub : c ∈ dropTrailingZeros _ := h
    unfold dropTrailingZeros at hsub
    have hmem := (List.dropWhile_sublist _).mem (List.mem_reverse.1 hsub)
    exact Text.isDigit_of_mem_digits (List.mem_reverse.1 hmem)

theorem mem_showExponent {e : Int} (h : c ∈ showExponent e) :
    c.isDigit = true ∨ c ∈ ['.','e','-','+'] := by
  unfold showExponent at h
  simp only [List.mem_cons] at h
  rcases h with rfl | h | h
  · exact .inr (by decide)
  · refine .inr ?_
    split at h <;> rw [h] <;> decide
  · refine .inl ?_
    split at h
    · rcases List.mem_cons.1 h with rfl | h
      · decide
      · exact Text.isDigit_of_mem_digits h
    · exact Text.isDigit_of_mem_digits h

theorem mem_render {d : Digits} (hd : ∀ c ∈ d.digits, c.isDigit = true) (h : c ∈ d.render) :
    c.isDigit = true ∨ c ∈ ['.','e','-','+'] := by
  have hzeros {n : Nat} (h : c ∈ List.replicate n '0') : c.isDigit = true := by
    rw [List.eq_of_mem_replicate h]
    decide
  -- one case for each way to lay the digits out
  unfold Digits.render at h
  dsimp only at h
  split at h
  · split at h
    · simp only [List.cons_append,List.mem_cons,List.mem_append] at h
      rcases h with rfl | rfl | h | h
      · exact .inl (by decide)
      · exact .inr (by decide)
      · exact .inl (hzeros h)
      · exact .inl (hd c h)
    · split at h
      · simp only [List.mem_append] at h
        rcases h with (h | h) | h
        · exact .inl (hd c h)
        · exact .inl (hzeros h)
        · have hclosing : ∀ c ∈ ['.','0'], c.isDigit = true ∨ c ∈ ['.','e','-','+'] :=
            Text.forall_mem_of_all (by decide)
          exact hclosing c h
      · simp only [List.mem_append,List.mem_cons] at h
        rcases h with h | rfl | h
        · exact .inl (hd c (List.mem_of_mem_take h))
        · exact .inr (by decide)
        · exact .inl (hd c (List.mem_of_mem_drop h))
  · split at h
    · cases h
    · rename_i hdigits
      rcases List.mem_cons.1 h with rfl | h
      · exact .inl (hd c (by simp [hdigits]))
      · exact mem_showExponent h
    · rename_i hdigits
      simp only [List.cons_append,List.mem_cons,List.mem_append] at h
      rcases h with rfl | rfl | h | h
      · exact .inl (hd c (by simp [hdigits]))
      · exact .inr (by decide)
      · exact .inl (hd c (by simp [hdigits,h]))
      · exact mem_showExponent h

theorem isBlank_showFloat (x : Float) : ∀ c ∈ (showFloat x).toList, Text.isBlank c = false := by
  have hwords : ∀ w ∈ ["nan","inf","-inf"], ∀ c ∈ w.toList, Text.isBlank c = false := by
    intro w hw
    refine Text.forall_mem_of_all ?_
    revert w
    decide
  have hmarks : ∀ c ∈ ['.','e','-','+'], Text.isBlank c = false :=
    Text.forall_mem_of_all (by decide)
  intro c hc
  unfold showFloat Spelling.show at hc
  split at hc
  · exact hwords "nan" (by decide) c hc
  · split at hc
    · exact hwords "-inf" (by decide) c hc
    · exact hwords "inf" (by decide) c hc
  · rw [String.toList_ofList,List.mem_append] at hc
    rcases hc with hc | hc
    · split at hc
      · rw [List.mem_singleton.1 hc]
        decide
      · cases hc
    · rcases mem_render (fun c => isDigit_shortest) hc with h | h
      · exact Text.isBlank_of_isDigit h
      · exact hmarks c h

/-- Three bits are less than a decimal place, so a number of 401 places is too large for a double. -/
theorem twoTo_le_tenTo : twoTo 1024 ≤ tenTo 400 := by
  have hplaces (n : Nat) : twoTo (3 * n) ≤ tenTo n := by
    have hmul : twoTo (3 * n) = Nat.pow (twoTo 3) n := Nat.pow_mul 2 3 n
    rw [hmul]
    exact Nat.pow_le_pow_left (by decide) n
  exact (twoTo_mono (by decide)).trans (hplaces 400)

theorem ofDigits_whole (negative : Bool) (n : Nat) :
    ofDigits negative n 0 = nearest negative n 1 := by
  unfold ofDigits
  dsimp only
  split
  · rename_i h
    have hzero : n = 0 := by
      simp only [Bool.or_eq_true,decide_eq_true_eq] at h
      omega
    rw [hzero]
  · split
    · rename_i h
      have hlong : tenTo 400 ≤ n := by
        rw [← Nat.not_lt,← length_digits_le (by decide)]
        omega
      exact nearest_large (le_rounded (twoTo_mono (by decide)))
        (le_rounded (twoTo_le_tenTo.trans hlong))
    · rw [if_pos (Int.le_refl 0)]
      simp [tenTo]

theorem readFloat?_toString (i : Int) :
    readFloat? (toString i) = some (nearest (decide (i < 0)) i.natAbs 1) := by
  have hchars : trimmedChars (toString i) = (toString i).toList := by
    rw [trimmedChars,trim_toString]
  have hdigits : (Nat.toDigits 10 i.natAbs).dropWhile Text.isDigit = [] :=
    List.dropWhile_eq_nil_iff.2 fun c hc => Text.isDigit_of_isDigit (Text.isDigit_of_mem_digits hc)
  have hempty : (Nat.toDigits 10 i.natAbs).isEmpty = false := by simp
  have hword (w : String) (hw : w.toList.any Text.isDigit = false) :
      (lowerAscii (Nat.toDigits 10 i.natAbs) == w) = false := by
    obtain ⟨c,hc⟩ := List.exists_mem_of_ne_nil _ (Nat.toDigits_ne_nil (n := i.natAbs) (b := 10))
    have hdigit := Text.isDigit_of_isDigit (Text.isDigit_of_mem_digits hc)
    refine beq_eq_false_iff_ne.2 fun he => ?_
    have hmem : c ∈ w.toList := by
      rw [← he,lowerAscii,String.toList_ofList]
      exact List.mem_map.2 ⟨c,hc,Text.toLower_of_isDigit hdigit⟩
    rw [List.any_eq_false] at hw
    exact hw c hmem hdigit
  unfold readFloat?
  simp only [hchars,takeSign_toString,hword "inf" (by decide),hword "infinity" (by decide),
    hword "nan" (by decide),joinGroups_figures (all_isFigure_digits i.natAbs)]
  unfold readUnsigned?
  simp only [takeWhile_digits,hdigits,hempty,readExponent?,List.append_nil,Text.digitsToNat_digits,
    Bool.false_and,Bool.or_false,Bool.false_eq_true,if_false,Option.map_some]
  exact congrArg some (ofDigits_whole _ _)

open Text

variable {cs rest digits sign : List Char} {s : String}

def signs : List (List Char) := [[],['+'],['-']]

inductive IsExponent : List Char → Prop
  | none : IsExponent []
  | some {mark : Char} {sign digits : List Char} (mem_marks : mark ∈ ['e','E'])
    (mem_signs : sign ∈ signs) (digits_ne_nil : digits ≠ [])
    (isDigit : ∀ c ∈ digits, isDigit c = true) : IsExponent (mark :: (sign ++ digits))

/-- Digits on at least one side of a point that may be missing, and an exponent. -/
inductive IsDecimal : List Char → Prop
  | plain {whole exponent : List Char} (whole_ne_nil : whole ≠ [])
    (isDigit : ∀ c ∈ whole, isDigit c = true) (hexponent : IsExponent exponent) :
    IsDecimal (whole ++ exponent)
  | pointed {whole fraction exponent : List Char} (ne_nil : whole ≠ [] ∨ fraction ≠ [])
    (isDigit_whole : ∀ c ∈ whole, isDigit c = true)
    (isDigit_fraction : ∀ c ∈ fraction, isDigit c = true) (hexponent : IsExponent exponent) :
    IsDecimal (whole ++ '.' :: (fraction ++ exponent))

theorem takeSign_eq (cs : List Char) : ∃ sign ∈ signs, cs = sign ++ (takeSign cs).2 := by
  unfold takeSign
  split
  · exact ⟨['-'],by decide,rfl⟩
  · exact ⟨['+'],by decide,rfl⟩
  · exact ⟨[],by decide,rfl⟩

theorem takeSign_append (hsign : sign ∈ signs) (h : ∀ c ∈ cs.head?, c ≠ '-' ∧ c ≠ '+') :
    (takeSign (sign ++ cs)).2 = cs := by
  simp only [signs,List.mem_cons,List.not_mem_nil,or_false] at hsign
  rcases hsign with rfl | rfl | rfl
  · rw [List.nil_append]
    unfold takeSign
    split
    · exact absurd rfl (h '-' rfl).1
    · exact absurd rfl (h '+' rfl).2
    · rfl
  · rfl
  · rfl

theorem ne_sign_of_isDigit (h : isDigit c = true) : c ≠ '-' ∧ c ≠ '+' := by
  constructor <;> rintro rfl <;> cases h

theorem takeSign_digit (hsign : sign ∈ signs) (hc : isDigit c = true) :
    (takeSign (sign ++ c :: cs)).2 = c :: cs := by
  refine takeSign_append hsign ?_
  rintro d ⟨⟩
  exact ne_sign_of_isDigit hc

theorem span_digits (h : ∀ c ∈ digits, isDigit c = true)
    (hrest : ∀ c ∈ rest.head?, isDigit c = false) :
    (digits ++ rest).takeWhile isDigit = digits ∧ (digits ++ rest).dropWhile isDigit = rest := by
  have hstop : rest.takeWhile isDigit = [] ∧ rest.dropWhile isDigit = rest := by
    cases rest with
    | nil => exact ⟨rfl,rfl⟩
    | cons c rest =>
      have hc := hrest c rfl
      simp [hc]
  rw [List.takeWhile_append_of_pos h,List.dropWhile_append_of_pos h,hstop.1,hstop.2]
  simp

theorem isDigit_takeWhile (cs : List Char) : ∀ c ∈ cs.takeWhile isDigit, isDigit c = true :=
  fun _ hc => List.mem_takeWhile_imp hc

theorem readExponent?_cons (mark : Char) (rest : List Char) :
    (readExponent? (mark :: rest)).isSome = true ↔
      mark ∈ ['e','E'] ∧ (takeSign rest).2 ≠ [] ∧ ∀ c ∈ (takeSign rest).2, isDigit c = true := by
  rw [readExponent?]
  generalize takeSign rest = r
  obtain ⟨negative,digits⟩ := r
  dsimp only
  split
  · rename_i hmark
    have hmem : mark ∈ ['e','E'] := by simpa using hmark
    split
    · rename_i h
      refine iff_of_false Bool.false_ne_true ?_
      rintro ⟨-,hne,hdigits⟩
      simp [hne,List.all_eq_true.2 hdigits] at h
    · rename_i h
      simp only [Bool.or_eq_true,not_or,Bool.not_eq_true',Bool.not_eq_false] at h
      exact iff_of_true rfl ⟨hmem,by simpa using h.1,List.all_eq_true.1 h.2⟩
  · rename_i hmark
    exact iff_of_false Bool.false_ne_true fun h => hmark (by simpa using h.1)

theorem readExponent?_isSome : (readExponent? cs).isSome = true ↔ IsExponent cs := by
  constructor
  · intro h
    cases cs with
    | nil => exact .none
    | cons mark rest =>
      obtain ⟨hmark,hne,hdigits⟩ := (readExponent?_cons mark rest).1 h
      obtain ⟨sign,hsign,hrest⟩ := takeSign_eq rest
      rw [hrest]
      exact .some hmark hsign hne hdigits
  · rintro (_ | @⟨mark,sign,digits,hmark,hsign,hne,hdigits⟩)
    · rfl
    · obtain ⟨c,digits,rfl⟩ := List.exists_cons_of_ne_nil hne
      refine (readExponent?_cons _ _).2 ⟨hmark,?_⟩
      rw [takeSign_digit hsign (hdigits c List.mem_cons_self)]
      exact ⟨hne,hdigits⟩

theorem IsExponent.head (h : IsExponent cs) : ∀ c ∈ cs.head?, isDigit c = false ∧ c ≠ '.' := by
  have hmarks : ∀ c ∈ ['e','E'], isDigit c = false ∧ c ≠ '.' := forall_mem_of_all (by decide)
  cases h with
  | none => nofun
  | some hmark =>
    rintro c ⟨⟩
    exact hmarks _ hmark

def behindPoint (cs : List Char) : List Char × List Char :=
  match cs with
  | '.' :: more => (more.takeWhile isDigit,more.dropWhile isDigit)
  | _ => ([],cs)

theorem behindPoint_unpointed (h : ∀ more, cs ≠ '.' :: more) : behindPoint cs = ([],cs) := by
  unfold behindPoint
  split
  · exact absurd rfl (h _)
  · rfl

theorem readUnsigned?_def (negative : Bool) (cs : List Char) : readUnsigned? negative cs =
    if (cs.takeWhile isDigit).isEmpty && (behindPoint (cs.dropWhile isDigit)).1.isEmpty then none
    else (readExponent? (behindPoint (cs.dropWhile isDigit)).2).map fun e =>
      ofDigits negative
        (digitsToNat (cs.takeWhile isDigit ++ (behindPoint (cs.dropWhile isDigit)).1))
        (e - (behindPoint (cs.dropWhile isDigit)).1.length) := rfl

theorem readUnsigned?_eq (negative : Bool) (cs : List Char) :
    (readUnsigned? negative cs).isSome = true ↔
      (cs.takeWhile isDigit ≠ [] ∨ (behindPoint (cs.dropWhile isDigit)).1 ≠ []) ∧
        IsExponent (behindPoint (cs.dropWhile isDigit)).2 := by
  rw [readUnsigned?_def,← readExponent?_isSome]
  split
  · rename_i h
    refine iff_of_false Bool.false_ne_true fun hsome => ?_
    simp only [Bool.and_eq_true,List.isEmpty_iff] at h
    exact hsome.1.elim (fun hw => hw h.1) fun hf => hf h.2
  · rename_i h
    rw [Option.isSome_map]
    simp only [Bool.and_eq_true,List.isEmpty_iff] at h
    exact ⟨fun hsome => ⟨not_and_or.1 h,hsome⟩,fun hsome => hsome.2⟩

theorem readUnsigned?_isSome (negative : Bool) :
    (readUnsigned? negative cs).isSome = true ↔ IsDecimal cs := by
  rw [readUnsigned?_eq]
  constructor
  · rintro ⟨hne,hexponent⟩
    have hsplit : cs.takeWhile isDigit ++ cs.dropWhile isDigit = cs := List.takeWhile_append_dropWhile
    rw [← hsplit]
    have hwhole := isDigit_takeWhile cs
    generalize cs.takeWhile isDigit = whole at hne hwhole
    generalize cs.dropWhile isDigit = behind at hne hexponent
    -- what follows the first digits begins with a point or has no more digits to give
    by_cases hpoint : ∃ more, behind = '.' :: more
    · obtain ⟨more,rfl⟩ := hpoint
      have hmore : more.takeWhile isDigit ++ more.dropWhile isDigit = more :=
        List.takeWhile_append_dropWhile
      rw [← hmore]
      exact .pointed hne hwhole (isDigit_takeWhile more) hexponent
    · rw [behindPoint_unpointed fun more h => hpoint ⟨more,h⟩] at hne hexponent
      exact .plain (hne.resolve_right fun h => h rfl) hwhole hexponent
  · intro h
    cases h with
    | plain hne hwhole hexponent =>
      obtain ⟨htake,hdrop⟩ := span_digits hwhole fun c hc => (hexponent.head c hc).1
      rw [htake,hdrop,behindPoint_unpointed]
      · exact ⟨.inl hne,hexponent⟩
      · rintro more rfl
        exact (hexponent.head '.' rfl).2 rfl
    | pointed hne hwhole hfraction hexponent =>
      have hpoint (more : List Char) : ∀ c ∈ ('.' :: more).head?, isDigit c = false := by
        rintro c ⟨⟩
        decide
      obtain ⟨htake,hdrop⟩ := span_digits hwhole (hpoint _)
      obtain ⟨htake',hdrop'⟩ := span_digits hfraction fun c hc => (hexponent.head c hc).1
      rw [htake,hdrop,behindPoint]
      dsimp only
      rw [htake',hdrop']
      exact ⟨hne,hexponent⟩

theorem IsDecimal.head (h : IsDecimal cs) :
    ∃ c rest, cs = c :: rest ∧ (isDigit c = true ∨ c = '.') := by
  cases h with
  | plain hne hwhole hexponent =>
    obtain ⟨c,whole,rfl⟩ := List.exists_cons_of_ne_nil hne
    exact ⟨c,_,rfl,.inl (hwhole c List.mem_cons_self)⟩
  | @pointed whole fraction exponent hne hwhole hfraction hexponent =>
    cases whole with
    | nil => exact ⟨'.',_,rfl,.inr rfl⟩
    | cons c whole => exact ⟨c,_,rfl,.inl (hwhole c List.mem_cons_self)⟩

theorem head?_joinGroups (cs : List Char) : (joinGroups cs).head? = cs.head? := by
  unfold joinGroups
  split
  · split <;> rfl
  · rfl
  · rfl

/-- A sign, and a word for infinity or a decimal whose digits may be grouped. -/
def IsNumeral (s : String) : Prop :=
  ∃ sign ∈ signs, ∃ body, (trim s).toList = sign ++ body ∧
    (lowerAscii body ∈ ["inf","infinity"] ∨ IsDecimal (joinGroups body))

theorem head?_lowerAscii (cs : List Char) :
    (lowerAscii cs).toList.head? = cs.head?.map Char.toLower := by
  rw [lowerAscii,String.toList_ofList,List.head?_map]

theorem isNumeral_iff : IsNumeral s ↔
    lowerAscii (takeSign (trimmedChars s)).2 ∈ ["inf","infinity"] ∨
      IsDecimal (joinGroups (takeSign (trimmedChars s)).2) := by
  constructor
  · rintro ⟨sign,hsign,body,hs,h⟩
    have hbody : (takeSign (trimmedChars s)).2 = body := by
      rw [trimmedChars,hs]
      refine takeSign_append hsign fun c hc => ?_
      rcases h with h | h
      · have hword : ∀ w ∈ ["inf","infinity"], w.toList.head? = some 'i' := by decide
        have hhead := head?_lowerAscii body
        rw [hword _ h,hc] at hhead
        constructor <;> rintro rfl <;> cases hhead
      · obtain ⟨d,rest,he,hd⟩ := h.head
        have hhead := head?_joinGroups body
        rw [he,hc] at hhead
        cases hhead
        rcases hd with hd | rfl
        · exact ne_sign_of_isDigit hd
        · decide
    rwa [hbody]
  · intro h
    obtain ⟨sign,hsign,hs⟩ := takeSign_eq (trimmedChars s)
    exact ⟨sign,hsign,_,hs,h⟩

theorem ofFloat_readUnsigned? {negative : Bool} {x : Float} (h : readUnsigned? negative cs = some x) :
    Reading.ofFloat x ≠ .nan := by
  rw [readUnsigned?_def] at h
  split at h
  · cases h
  · obtain ⟨e,-,rfl⟩ := Option.map_eq_some_iff.1 h
    exact ofFloat_ofDigits_ne_nan _ _ _

theorem ofFloat_notANumber : Reading.ofFloat notANumber = .nan := by decide +kernel

theorem not_isDecimal_nan (h : lowerAscii cs = "nan") : ¬IsDecimal (joinGroups cs) := by
  intro hdecimal
  obtain ⟨c,rest,he,hc⟩ := hdecimal.head
  have hhead := head?_joinGroups cs
  rw [he] at hhead
  have hlower := head?_lowerAscii cs
  rw [h,← hhead] at hlower
  have hn : 'n' = c.toLower := Option.some.inj hlower
  rcases hc with hc | rfl
  · rw [toLower_of_isDigit hc] at hn
    rw [← hn] at hc
    exact absurd hc (by decide)
  · exact absurd hn (by decide)

/-- A numeral is read as a number, another text as none or as NaN. -/
theorem readFloat?_isNumeral (s : String) :
    IsNumeral s ∧ (∃ x, readFloat? s = some x ∧ Reading.ofFloat x ≠ .nan) ∨
      ¬IsNumeral s ∧ ∀ x, readFloat? s = some x → Reading.ofFloat x = .nan := by
  rw [isNumeral_iff]
  unfold readFloat?
  generalize takeSign (trimmedChars s) = signed
  obtain ⟨negative,body⟩ := signed
  dsimp only
  split
  · rename_i hword
    have hmem : lowerAscii body ∈ ["inf","infinity"] := by simpa using hword
    exact .inl ⟨.inl hmem,_,rfl,ofFloat_nearest_ne_nan _ _ _⟩
  · rename_i hword
    have hmem : lowerAscii body ∉ ["inf","infinity"] := by simpa using hword
    split
    · rename_i hnan
      refine .inr ⟨not_or.2 ⟨hmem,not_isDecimal_nan (by simpa using hnan)⟩,?_⟩
      rintro x ⟨⟩
      exact ofFloat_notANumber
    · cases hread : readUnsigned? negative (joinGroups body) with
      | none =>
        refine .inr ⟨not_or.2 ⟨hmem,fun h => ?_⟩,nofun⟩
        rw [← readUnsigned?_isSome negative,hread] at h
        cases h
      | some x =>
        have hsome : (readUnsigned? negative (joinGroups body)).isSome = true := by rw [hread]; rfl
        have hdecimal := (readUnsigned?_isSome negative).1 hsome
        exact .inl ⟨.inr hdecimal,x,rfl,ofFloat_readUnsigned? hread⟩

variable {k : Nat}

def Stops (k : Nat) (cs : List Char) : Prop :=
  ∃ front rest, cs = front ++ rest ∧ front.length ≤ k ∧
    ∀ c ∈ rest.head?, isDigit c = false ∧ c ≠ '-' ∧ c ≠ '+'

theorem length_takeWhile_le (h : ∀ c ∈ rest.head?, isDigit c = false) (front : List Char) :
    ((front ++ rest).takeWhile isDigit).length ≤ front.length := by
  induction front with
  | nil =>
    have hnone : ([] ++ rest).takeWhile isDigit = [] := (span_digits (by simp) h).1
    rw [hnone]
  | cons c front ih =>
    rw [List.cons_append,List.takeWhile_cons]
    split
    · exact Nat.succ_le_succ ih
    · exact Nat.zero_le _

/-- A text that stops has no more digits in front, whether it has a sign or not. -/
theorem Stops.length_le (h : Stops k cs) : ((takeSign cs).2.takeWhile isDigit).length ≤ k := by
  obtain ⟨front,rest,rfl,hlength,hrest⟩ := h
  have hsign : ∃ kept, (takeSign (front ++ rest)).2 = kept ++ rest ∧ kept.length ≤ front.length := by
    cases front with
    | nil =>
      have hsigns : [] ∈ signs := by decide
      exact ⟨[],takeSign_append hsigns fun c hc => (hrest c hc).2,Nat.le_refl _⟩
    | cons c front =>
      rw [List.cons_append]
      unfold takeSign
      split
      · rename_i he
        exact ⟨front,(List.cons.inj he).2.symm,Nat.le_succ _⟩
      · rename_i he
        exact ⟨front,(List.cons.inj he).2.symm,Nat.le_succ _⟩
      · exact ⟨c :: front,rfl,Nat.le_refl _⟩
  obtain ⟨kept,hkept,hle⟩ := hsign
  rw [hkept]
  exact (length_takeWhile_le (fun c hc => (hrest c hc).1) kept).trans (hle.trans hlength)

theorem stops_render (d : Digits) : ∃ front rest, d.render = front ++ rest ∧ front.length ≤ 16 ∧
    ∀ c ∈ rest.head?, c = '.' ∨ c = 'e' := by
  unfold Digits.render
  dsimp only
  split
  · rename_i hplaces
    simp only [Bool.and_eq_true,decide_eq_true_eq] at hplaces
    split
    · exact ⟨['0'],'.' :: _,rfl,by decide,by rintro c ⟨⟩; exact .inl rfl⟩
    · split
      · refine ⟨_,['.','0'],rfl,?_,by rintro c ⟨⟩; exact .inl rfl⟩
        rw [List.length_append,List.length_replicate]
        omega
      · refine ⟨_,'.' :: _,rfl,?_,by rintro c ⟨⟩; exact .inl rfl⟩
        rw [List.length_take]
        omega
  · split
    · exact ⟨[],[],rfl,by decide,nofun⟩
    · exact ⟨[_],_,rfl,Nat.le_of_ble_eq_true rfl,by rintro c ⟨⟩; exact .inr rfl⟩
    · exact ⟨[_],_,rfl,Nat.le_of_ble_eq_true rfl,by rintro c ⟨⟩; exact .inl rfl⟩

theorem stops_showFloat (x : Float) : Stops 17 (showFloat x).toList := by
  have hmarks : ∀ c ∈ ['.','e'], isDigit c = false ∧ c ≠ '-' ∧ c ≠ '+' :=
    forall_mem_of_all (by decide)
  unfold showFloat Spelling.show
  split
  · exact ⟨[],_,rfl,by decide,by rintro c ⟨⟩; decide⟩
  · split
    · exact ⟨['-'],"inf".toList,rfl,by decide,by rintro c ⟨⟩; decide⟩
    · exact ⟨[],_,rfl,by decide,by rintro c ⟨⟩; decide⟩
  · rename_i d _
    obtain ⟨front,rest,hrender,hlength,hrest⟩ := stops_render d.shortest
    rw [String.toList_ofList,hrender,← List.append_assoc]
    refine ⟨_,rest,rfl,?_,fun c hc => hmarks c (by simpa using hrest c hc)⟩
    rw [List.length_append]
    split
    · rw [List.length_singleton]
      omega
    · exact (Nat.zero_add _).le.trans (hlength.trans (by decide))

end Decimal

namespace Value.Cast

theorem leadingWhole_toString {i : Int} (h : i.natAbs < Json.writtenLimit) :
    leadingWhole (toString i) = .ok (.int i) := by
  have hdrop : Text.dropBlanks (toString i).toList = (toString i).toList := by
    rw [← Decimal.trim_toString,Text.dropBlanks_trim]
  have hempty : (Nat.toDigits 10 i.natAbs).isEmpty = false := by
    simp
  have hsigned : (if decide (i < 0) = true then -(i.natAbs : Int) else i.natAbs) = i := by
    by_cases hneg : i < 0
    · rw [if_pos (decide_eq_true hneg)]
      omega
    · rw [decide_eq_false hneg,if_neg Bool.false_ne_true]
      omega
  unfold leadingWhole
  simp only [hdrop,Decimal.takeSign_toString,Decimal.takeWhile_digits,hempty,
    Text.digitsToNat_digits,hsigned,if_neg (Nat.not_lt.2 (Decimal.length_digits_le_maxDigits.2 h)),
    Bool.false_eq_true,if_false]

end Value.Cast

end StepGraph
