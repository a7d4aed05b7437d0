import Mathlib.Data.Nat.Log
import StepGraph.Decimal.Binary64

/-!
Doubles are words of 64 bits. A word that is no NaN is kept as it is, so what is read from a nearest
double is what was put into its word. It is never NaN; that of a whole number is a whole number
again, the nearest one of 53 significant bits, unless it is too large for any double.
-/
namespace StepGraph.Decimal

open Float.Model UnpackedFloat

theorem toNat_append {m n : Nat} (x : BitVec m) (y : BitVec n) :
    (x ++ y).toNat = x.toNat * twoTo n + y.toNat := by
  rw [BitVec.toNat_append,← Nat.shiftLeft_add_eq_or_of_lt y.isLt,Nat.shiftLeft_eq]
  rfl

abbrev Word := BitVec Format.binary64.numBits

variable {b : Word}

theorem toNat_mantissa (b : Word) : (unpackMantissa b).toNat = b.toNat % twoTo 52 := by
  delta unpackMantissa
  simp [twoTo]

theorem toNat_exponent (b : Word) :
    (unpackExponent b).toNat = b.toNat / twoTo 52 % twoTo 11 := by
  delta unpackExponent
  simp [Nat.shiftRight_eq_div_pow,twoTo]

theorem toNat_sign (b : Word) : (unpackSign b).toNat = b.toNat / twoTo 63 := by
  have h : b.toNat < 2 ^ 64 := b.isLt
  delta unpackSign
  simp [Nat.shiftRight_eq_div_pow,twoTo]
  omega

theorem sign_toBitVec (s : BitVec 1) : (Sign.ofBitVec s).toBitVec = s := by
  revert s
  decide

theorem packComponents_eq {e : BitVec 11} {m : BitVec 52}
    (he : unpackExponent b = e) (hm : unpackMantissa b = m) :
    packComponents .binary64 (Sign.ofBitVec (unpackSign b)) e m = b := by
  have h : b.toNat < 2 ^ 64 := b.isLt
  have h52 : twoTo 52 = 2 ^ 52 := rfl
  have h63 : twoTo 63 = 2 ^ 63 := rfl
  have h11 : twoTo 11 = 2 ^ 11 := rfl
  apply BitVec.eq_of_toNat_eq
  delta packComponents
  rw [sign_toBitVec,toNat_append,toNat_append,toNat_sign,← he,← hm,toNat_exponent,toNat_mantissa]
  simp only [Format.binary64,h52,h63,h11]
  omega

theorem pack_small (he : unpackExponent b = 0#11) (hpos : 0 < (unpackMantissa b).toNat) (e : Int)
    (hexponent : e + Format.binary64.exponentBias + Format.binary64.mantissaBitsWithoutImplicit = 1) :
    UnpackedFloat.pack .binary64
      (.finite (Sign.ofBitVec (unpackSign b)) (unpackMantissa b).toNat e hpos) = b := by
  have hlt : (unpackMantissa b).toNat < 2 ^ 52 := (unpackMantissa b).isLt
  have hlog : ¬(unpackMantissa b).toNat.log2 + 1 = Format.binary64.mantissaBits :=
    Nat.ne_of_lt (Nat.succ_lt_succ ((Nat.log2_lt (Nat.ne_of_gt hpos)).2 hlt))
  delta UnpackedFloat.pack
  dsimp only
  rw [hexponent,if_neg (by decide),if_neg hlog]
  exact packComponents_eq he (by rw [BitVec.ofNat_toNat,BitVec.setWidth_eq])

/-- A number with all its bits is packed with its exponent, and its leading bit is dropped. -/
theorem pack_full (hfull : unpackExponent b ≠ -1#11) (hpos : 0 < (1#1 ++ unpackMantissa b).toNat)
    (e : Int) (hexponent : e + Format.binary64.exponentBias +
      Format.binary64.mantissaBitsWithoutImplicit = (unpackExponent b).toNat) :
    UnpackedFloat.pack .binary64
      (.finite (Sign.ofBitVec (unpackSign b)) (1#1 ++ unpackMantissa b).toNat e hpos) = b := by
  have hlt : (unpackMantissa b).toNat < 2 ^ 52 := (unpackMantissa b).isLt
  have hone : (1#1 ++ unpackMantissa b).toNat = 2 ^ 52 + (unpackMantissa b).toNat :=
    (toNat_append _ _).trans (congrArg (· + _) (Nat.one_mul _))
  have hlog : (1#1 ++ unpackMantissa b).toNat.log2 + 1 = Format.binary64.mantissaBits := by
    have hbits : (2 ^ 52 + (unpackMantissa b).toNat).log2 = 52 :=
      (Nat.log2_eq_iff (by omega)).2 ⟨by omega,by omega⟩
    rw [hone,hbits]
    rfl
  have hbound : ¬2 ^ 11 ≤ (unpackExponent b).toNat + 1 := by
    have hexplt : (unpackExponent b).toNat < 2 ^ 11 := (unpackExponent b).isLt
    have hmax : (unpackExponent b).toNat ≠ 2 ^ 11 - 1 := fun h => hfull (BitVec.eq_of_toNat_eq h)
    omega
  delta UnpackedFloat.pack
  dsimp only
  rw [hexponent,Int.toNat_natCast,if_neg hbound,if_pos hlog]
  refine packComponents_eq (by rw [BitVec.ofNat_toNat,BitVec.setWidth_eq]) ?_
  apply BitVec.eq_of_toNat_eq
  rw [hone,BitVec.toNat_ofNat]
  simp only [Format.binary64]
  omega

theorem pack_unpack (h : unpackExponent b ≠ -1#11 ∨ unpackMantissa b = 0#52) :
    UnpackedFloat.pack .binary64 (UnpackedFloat.unpack .binary64 b) = b := by
  delta UnpackedFloat.unpack
  dsimp only
  by_cases hfull : unpackExponent b = -1#11
  · have hm := h.resolve_left fun hne => hne hfull
    rw [if_pos hfull,if_pos hm]
    exact packComponents_eq hfull hm
  rw [if_neg hfull]
  by_cases he : unpackExponent b = 0#11
  · rw [if_pos he]
    by_cases hm : unpackMantissa b = 0#52
    · rw [dif_pos hm]
      exact packComponents_eq he hm
    · rw [dif_neg hm]
      refine pack_small he _ _ ?_
      rw [he]
      decide
  · rw [if_neg he]
    have hcancel (x p q : Int) : x - (p + q) + p + q = x := by omega
    exact pack_full hfull _ _ (hcancel _ _ _)

theorem toBits_ofBits {n : Nat} (hn : n < twoTo 64)
    (h : n / twoTo 52 % twoTo 11 ≠ twoTo 11 - 1 ∨ n % twoTo 52 = 0) :
    (Float.ofBits (UInt64.ofNat n)).toBits.toNat = n := by
  have hword : (BitVec.ofNat 64 n).toNat = n := Nat.mod_eq_of_lt hn
  have hkept : UnpackedFloat.pack .binary64 (UnpackedFloat.unpack .binary64 (BitVec.ofNat 64 n)) =
      BitVec.ofNat 64 n := by
    rcases h with hfield | hfraction
    · refine pack_unpack (.inl fun he => hfield ?_)
      rw [← hword,← toNat_exponent,he]
      rfl
    · refine pack_unpack (.inr (BitVec.eq_of_toNat_eq ?_))
      rw [toNat_mantissa,hword,hfraction]
      rfl
  change (UnpackedFloat.pack .binary64
    (UnpackedFloat.unpack .binary64 (BitVec.ofNat 64 n))).toNat = n
  rw [hkept,hword]

variable {negative : Bool} {bits num den : Nat}

theorem ofFloat_word (h : bits ≤ infinityBits) :
    Reading.ofFloat (Float.ofBits (UInt64.ofNat (if negative then twoTo 63 + bits else bits))) =
      if bits = infinityBits then .infinite negative
      else if bits < twoTo 52 then .finite ⟨negative,bits,-1074⟩
      else .finite ⟨negative,twoTo 52 + bits % twoTo 52,(bits / twoTo 52 : Nat) - 1075⟩ := by
  have h52 : twoTo 52 = 2 ^ 52 := rfl
  have h63 : twoTo 63 = 2 ^ 63 := rfl
  have h11 : twoTo 11 = 2 ^ 11 := rfl
  have hinf : infinityBits = 2047 * 2 ^ 52 := rfl
  rw [hinf] at h
  generalize hw : (if negative then twoTo 63 + bits else bits) = w
  have hwlt : w < 2 ^ 64 ∧ w / 2 ^ 52 % 2 ^ 11 = bits / 2 ^ 52 ∧ w % 2 ^ 52 = bits % 2 ^ 52 ∧
      decide (2 ^ 63 ≤ w) = negative := by
    rw [← hw,h63]
    cases negative with
    | true =>
      rw [if_pos rfl]
      exact ⟨by omega,by omega,by omega,decide_eq_true (Nat.le_add_right _ _)⟩
    | false =>
      rw [if_neg Bool.false_ne_true]
      exact ⟨by omega,by omega,rfl,decide_eq_false (by omega)⟩
  obtain ⟨hlt,hfield,hfraction,hnegative⟩ := hwlt
  have hbits := toBits_ofBits hlt (by rw [h52,h11,hfield,hfraction]; omega)
  unfold Reading.ofFloat
  simp only [hbits,h52,h63,h11,hinf,hfield,hfraction,hnegative]
  by_cases hinfinite : bits = 2047 * 2 ^ 52
  · rw [if_pos (by omega),if_pos (by omega),if_pos hinfinite]
  · rw [if_neg (by omega),if_neg hinfinite]
    by_cases hsmall : bits < 2 ^ 52
    · rw [if_pos (by omega),if_pos hsmall,Nat.mod_eq_of_lt hsmall]
    · rw [if_neg (by omega),if_neg hsmall]

theorem ofFloat_nearest (negative : Bool) (num den : Nat) :
    Reading.ofFloat (nearest negative num den) =
      if infinityBits ≤ nearestBits num den then .infinite negative
      else if nearestBits num den < twoTo 52 then .finite ⟨negative,nearestBits num den,-1074⟩
      else .finite ⟨negative,twoTo 52 + nearestBits num den % twoTo 52,
        (nearestBits num den / twoTo 52 : Nat) - 1075⟩ := by
  unfold nearest
  dsimp only
  rw [ofFloat_word (Nat.min_le_right _ _)]
  by_cases h : infinityBits ≤ nearestBits num den
  · rw [if_pos (Nat.min_eq_right h),if_pos h]
  · rw [Nat.min_eq_left (Nat.le_of_not_le h),if_neg (Nat.ne_of_lt (Nat.lt_of_not_le h)),if_neg h]

theorem ofFloat_nearest_ne_nan (negative : Bool) (num den : Nat) :
    Reading.ofFloat (nearest negative num den) ≠ .nan := by
  rw [ofFloat_nearest]
  split
  · exact nofun
  · split <;> exact nofun

theorem ofFloat_ofDigits_ne_nan (negative : Bool) (digits : Nat) (exponent : Int) :
    Reading.ofFloat (ofDigits negative digits exponent) ≠ .nan := by
  unfold ofDigits
  dsimp only
  split
  · exact ofFloat_nearest_ne_nan _ _ _
  · split
    · exact ofFloat_nearest_ne_nan _ _ _
    · split <;> exact ofFloat_nearest_ne_nan _ _ _

theorem twoTo_add (m n : Nat) : twoTo (m + n) = twoTo m * twoTo n := Nat.pow_add 2 m n

theorem twoTo_pos (n : Nat) : 0 < twoTo n := Nat.pow_pos (by decide)

theorem twoTo_strictMono {m n : Nat} (h : m < n) : twoTo m < twoTo n :=
  Nat.pow_lt_pow_right (by decide) h

theorem twoTo_mono {m n : Nat} (h : m ≤ n) : twoTo m ≤ twoTo n := Nat.pow_le_pow_right (by decide) h

theorem truncate_lt {x : Float} {d : Dyadic} (h : Reading.ofFloat x = .finite d) :
    d.truncate.natAbs < twoTo 1024 := by
  have h52 : twoTo 52 = 2 ^ 52 := rfl
  have hfields : d.mantissa < 2 ^ 53 ∧ d.exponent ≤ 971 := by
    unfold Reading.ofFloat at h
    extract_lets bits negative field fraction at h
    have hfraction : fraction < twoTo 52 := Nat.mod_lt _ (by decide)
    have hfield : field < 2048 := Nat.mod_lt _ (by decide)
    split at h
    · split at h <;> cases h
    · split at h
      · cases h
        dsimp only
        omega
      · cases h
        dsimp only
        omega
  obtain ⟨hmantissa,hexponent⟩ := hfields
  have hsigned (n : Nat) : (d.signed n).natAbs = n := by
    unfold Dyadic.signed
    split <;> omega
  unfold Dyadic.truncate Dyadic.fraction
  rw [hsigned]
  split
  · rename_i hpos
    calc
      d.mantissa * twoTo d.exponent.toNat / 1
      _ = d.mantissa * twoTo d.exponent.toNat := Nat.div_one _
      _ < twoTo 53 * twoTo d.exponent.toNat := Nat.mul_lt_mul_of_pos_right hmantissa (twoTo_pos _)
      _ = twoTo (53 + d.exponent.toNat) := (twoTo_add _ _).symm
      _ ≤ twoTo 1024 := twoTo_mono (by omega)
  · calc
      d.mantissa / twoTo (-d.exponent).toNat
      _ ≤ d.mantissa := Nat.div_le_self _ _
      _ < twoTo 53 := hmantissa
      _ ≤ twoTo 1024 := twoTo_mono (by decide)

/-- The nearest of the numbers with 53 significant bits; a half goes to the even one. -/
def rounded (n : Nat) : Nat := roundQuotient n (twoTo (n.log2 - 52)) * twoTo (n.log2 - 52)

variable {n : Nat}

theorem scaled_whole (n : Nat) : scaled n 1 ((n.log2 : Int) - 52) =
    (n * twoTo (52 - n.log2),twoTo (n.log2 - 52)) := by
  unfold scaled
  split
  · rename_i h
    have hfew : 52 - n.log2 = 0 := by omega
    have hmany : ((n.log2 : Int) - 52).toNat = n.log2 - 52 := by omega
    rw [hfew,hmany]
    simp [twoTo]
  · rename_i h
    have hfew : (-((n.log2 : Int) - 52)).toNat = 52 - n.log2 := by omega
    have hmany : n.log2 - 52 = 0 := by omega
    rw [hfew,hmany]
    rfl

def significand (n : Nat) : Nat := roundQuotient (n * twoTo (52 - n.log2)) (twoTo (n.log2 - 52))

theorem roundQuotient_cases (num den : Nat) :
    roundQuotient num den = num / den ∧ 2 * (num % den) ≤ den ∨
      roundQuotient num den = num / den + 1 ∧ den ≤ 2 * (num % den) := by
  unfold roundQuotient
  dsimp only
  split
  · exact .inl ⟨rfl,by omega⟩
  · split
    · exact .inr ⟨rfl,by omega⟩
    · rcases Nat.mod_two_eq_zero_or_one (num / den) with h | h
      · exact .inl ⟨by omega,by omega⟩
      · exact .inr ⟨by omega,by omega⟩

theorem aligned (n : Nat) : twoTo 52 * twoTo (n.log2 - 52) = twoTo n.log2 * twoTo (52 - n.log2) := by
  rw [← twoTo_add,← twoTo_add]
  congr 1
  omega

theorem le_of_log2 (hn : n ≠ 0) : twoTo n.log2 ≤ n ∧ n < twoTo (n.log2 + 1) :=
  (Nat.log2_eq_iff hn).1 rfl

theorem scaled_bounds (hn : n ≠ 0) :
    twoTo 52 ≤ n * twoTo (52 - n.log2) / twoTo (n.log2 - 52) ∧
      n * twoTo (52 - n.log2) / twoTo (n.log2 - 52) < twoTo 53 := by
  obtain ⟨hlow,hhigh⟩ := le_of_log2 hn
  have h := aligned n
  have hdouble : twoTo 53 = 2 * twoTo 52 := rfl
  rw [Nat.le_div_iff_mul_le (twoTo_pos _),Nat.div_lt_iff_lt_mul (twoTo_pos _),hdouble,Nat.mul_assoc,h,
    ← Nat.mul_assoc]
  have hsucc : twoTo (n.log2 + 1) = 2 * twoTo n.log2 := by rw [twoTo_add,Nat.mul_comm]; rfl
  exact ⟨Nat.mul_le_mul_right _ hlow,Nat.mul_lt_mul_of_pos_right (hsucc ▸ hhigh) (twoTo_pos _)⟩

theorem significand_bounds (hn : n ≠ 0) : twoTo 52 ≤ significand n ∧ significand n ≤ twoTo 53 := by
  obtain ⟨hlow,hhigh⟩ := scaled_bounds hn
  unfold significand
  rcases roundQuotient_cases (n * twoTo (52 - n.log2)) (twoTo (n.log2 - 52)) with ⟨h,-⟩ | ⟨h,-⟩ <;>
    omega

theorem nearestBits_whole (hn : n ≠ 0) :
    nearestBits n 1 = (n.log2 + 1022) * twoTo 52 + significand n := by
  obtain ⟨hlow,hhigh⟩ := scaled_bounds hn
  have hguess : (n.log2 : Int) - (Nat.log2 1 : Nat) - 52 = (n.log2 : Int) - 52 := by
    have hone : Nat.log2 1 = 0 := by decide
    omega
  have hmax : max ((n.log2 : Int) - 52) (-1074) = (n.log2 : Int) - 52 := by omega
  have hbias : ((n.log2 : Int) - 52 + 1074).toNat = n.log2 + 1022 := by omega
  unfold nearestBits
  rw [if_neg hn]
  dsimp only
  rw [hguess,scaled_whole]
  dsimp only
  rw [if_neg (Nat.not_lt.2 hlow),hmax,scaled_whole,hbias]
  rfl

theorem Dyadic.truncate_mul (negative : Bool) (m e : Nat) :
    Dyadic.isWhole ⟨negative,m,e⟩ = true ∧
      Dyadic.truncate ⟨negative,m,e⟩ = if negative then -(m * twoTo e : Int) else m * twoTo e := by
  have hfraction : Dyadic.fraction ⟨negative,m,e⟩ = (m * twoTo e,1) := rfl
  unfold Dyadic.isWhole Dyadic.truncate Dyadic.signed
  rw [hfraction]
  simp [Nat.mod_one]

theorem Dyadic.truncate_div (negative : Bool) (m k : Nat) :
    Dyadic.isWhole ⟨negative,m * twoTo k,-(k : Int)⟩ = true ∧
      Dyadic.truncate ⟨negative,m * twoTo k,-(k : Int)⟩ = if negative then -(m : Int) else m := by
  cases k with
  | zero => simpa [twoTo] using truncate_mul negative m 0
  | succ k =>
    have hfraction : Dyadic.fraction ⟨negative,m * twoTo (k + 1),-((k + 1 : Nat) : Int)⟩ =
        (m * twoTo (k + 1),twoTo (k + 1)) := rfl
    unfold Dyadic.isWhole Dyadic.truncate Dyadic.signed
    rw [hfraction]
    simp [Nat.mul_div_cancel _ (twoTo_pos _)]

theorem rounded_eq (n : Nat) : 52 ≤ n.log2 ∧ rounded n = significand n * twoTo (n.log2 - 52) ∨
    n.log2 < 52 ∧ significand n = n * twoTo (52 - n.log2) ∧ rounded n = n := by
  have hone (m : Nat) : roundQuotient m 1 = m := by simp [roundQuotient,Nat.mod_one]
  rcases Nat.lt_or_ge n.log2 52 with h | h
  · have hfew : n.log2 - 52 = 0 := Nat.sub_eq_zero_of_le (Nat.le_of_lt h)
    refine .inr ⟨h,?_,?_⟩
    · unfold significand
      rw [hfew]
      exact hone _
    · unfold rounded
      rw [hfew]
      exact (Nat.mul_one _).trans (hone n)
  · have hmany : 52 - n.log2 = 0 := Nat.sub_eq_zero_of_le h
    refine .inl ⟨h,?_⟩
    unfold significand rounded
    rw [hmany]
    simp [twoTo]

theorem twoTo_le_rounded (hn : n ≠ 0) :
    twoTo 1024 ≤ rounded n ↔ 1024 ≤ n.log2 ∨ n.log2 = 1023 ∧ significand n = twoTo 53 := by
  obtain ⟨hlow,hhigh⟩ := significand_bounds hn
  rcases rounded_eq n with ⟨hmany,he⟩ | ⟨hfew,-,he⟩ <;> rw [he]
  · rcases Nat.lt_trichotomy n.log2 1023 with h | h | h
    · have hlt : significand n * twoTo (n.log2 - 52) < twoTo 1024 := calc
        significand n * twoTo (n.log2 - 52)
        _ ≤ twoTo 53 * twoTo (n.log2 - 52) := Nat.mul_le_mul_right _ hhigh
        _ = twoTo (53 + (n.log2 - 52)) := (twoTo_add _ _).symm
        _ < twoTo 1024 := twoTo_strictMono (by omega)
      exact iff_of_false (Nat.not_le.2 hlt) (by omega)
    · have hsplit : twoTo 1024 = twoTo 53 * twoTo 971 := by rw [← twoTo_add]
      rw [h,hsplit,Nat.mul_le_mul_right_iff (twoTo_pos _)]
      omega
    · have hle : twoTo 1024 ≤ significand n * twoTo (n.log2 - 52) := calc
        twoTo 1024
        _ ≤ twoTo (52 + (n.log2 - 52)) := twoTo_mono (by omega)
        _ = twoTo 52 * twoTo (n.log2 - 52) := twoTo_add _ _
        _ ≤ significand n * twoTo (n.log2 - 52) := Nat.mul_le_mul_right _ hlow
      exact iff_of_true hle (by omega)
  · have hlt : n < twoTo 1024 := Nat.lt_of_lt_of_le (le_of_log2 hn).2 (twoTo_mono (by omega))
    exact iff_of_false (Nat.not_le.2 hlt) (by omega)

theorem twoTo_le_iff {k n : Nat} (hn : n ≠ 0) : twoTo k ≤ n ↔ k ≤ n.log2 := (Nat.le_log2 hn).symm

theorem le_rounded {n : Nat} (h : twoTo 1024 ≤ n) : twoTo 1024 ≤ rounded n := by
  have hn : n ≠ 0 := Nat.ne_of_gt (Nat.lt_of_lt_of_le (twoTo_pos _) h)
  exact (twoTo_le_rounded hn).2 (.inl ((twoTo_le_iff hn).1 h))

theorem infinityBits_le_nearestBits (n : Nat) :
    infinityBits ≤ nearestBits n 1 ↔ twoTo 1024 ≤ rounded n := by
  rcases Nat.eq_zero_or_pos n with rfl | hpos
  · have hzero : rounded 0 = 0 := rfl
    rw [hzero]
    exact iff_of_false (by decide) (Nat.not_le.2 (twoTo_pos _))
  · have hn := Nat.ne_of_gt hpos
    obtain ⟨hlow,hhigh⟩ : 2 ^ 52 ≤ significand n ∧ significand n ≤ 2 ^ 53 := significand_bounds hn
    have h52 : twoTo 52 = 2 ^ 52 := rfl
    have h53 : twoTo 53 = 2 ^ 53 := rfl
    rw [twoTo_le_rounded hn,nearestBits_whole hn,infinityBits,h52,h53]
    omega

/-- Numbers too large for a double have one nearest double, the infinite one. -/
theorem nearest_large {negative : Bool} {m n : Nat} (hm : twoTo 1024 ≤ rounded m)
    (hn : twoTo 1024 ≤ rounded n) : nearest negative m 1 = nearest negative n 1 := by
  unfold nearest
  rw [Nat.min_eq_right ((infinityBits_le_nearestBits m).2 hm),
    Nat.min_eq_right ((infinityBits_le_nearestBits n).2 hn)]

theorem ofFloat_nearest_whole (negative : Bool) (h : rounded n < twoTo 1024) :
    ∃ d : Dyadic, Reading.ofFloat (nearest negative n 1) = .finite d ∧ d.isWhole = true ∧
      d.truncate = if negative then -(rounded n : Int) else rounded n := by
  have hfinite : ¬infinityBits ≤ nearestBits n 1 := fun hle =>
    Nat.not_le.2 h ((infinityBits_le_nearestBits n).1 hle)
  rw [ofFloat_nearest,if_neg hfinite]
  have h52 : twoTo 52 = 2 ^ 52 := rfl
  rw [h52]
  rcases Nat.eq_zero_or_pos n with rfl | hpos
  · have hzero := Dyadic.truncate_div negative 0 1074
    rw [Nat.zero_mul] at hzero
    exact ⟨⟨negative,0,-1074⟩,rfl,hzero⟩
  have hn := Nat.ne_of_gt hpos
  obtain ⟨hlow,hhigh⟩ : 2 ^ 52 ≤ significand n ∧ significand n ≤ 2 ^ 53 := significand_bounds hn
  have hbits : nearestBits n 1 = (n.log2 + 1022) * 2 ^ 52 + significand n := nearestBits_whole hn
  rw [if_neg (show ¬nearestBits n 1 < 2 ^ 52 by omega)]
  refine ⟨_,rfl,?_⟩
  rcases rounded_eq n with ⟨hmany,he⟩ | ⟨hfew,hexact,he⟩
  · rcases Nat.lt_or_ge (significand n) (2 ^ 53) with hlt | hge
    · have hmantissa : 2 ^ 52 + nearestBits n 1 % 2 ^ 52 = significand n := by omega
      have hexponent : ((nearestBits n 1 / 2 ^ 52 : Nat) : Int) - 1075 = (n.log2 - 52 : Nat) := by
        omega
      rw [hmantissa,hexponent,he]
      simpa using Dyadic.truncate_mul negative (significand n) (n.log2 - 52)
    · -- All bits are set, and the number is rounded up to the next power of two.
      have hmantissa : 2 ^ 52 + nearestBits n 1 % 2 ^ 52 = twoTo 52 := by omega
      have hexponent : ((nearestBits n 1 / 2 ^ 52 : Nat) : Int) - 1075 = (n.log2 - 51 : Nat) := by
        omega
      have hvalue : rounded n = twoTo 52 * twoTo (n.log2 - 51) := by
        have hpower : significand n = twoTo 53 := Nat.le_antisymm hhigh hge
        rw [he,hpower,← twoTo_add,← twoTo_add]
        congr 1
        omega
      rw [hmantissa,hexponent,hvalue]
      simpa using Dyadic.truncate_mul negative (twoTo 52) (n.log2 - 51)
  · have hlt : n * twoTo (52 - n.log2) < 2 ^ 53 := calc
      n * twoTo (52 - n.log2)
      _ < twoTo (n.log2 + 1) * twoTo (52 - n.log2) :=
        Nat.mul_lt_mul_of_pos_right (le_of_log2 hn).2 (twoTo_pos _)
      _ = twoTo (n.log2 + 1 + (52 - n.log2)) := (twoTo_add _ _).symm
      _ = 2 ^ 53 := by rw [show n.log2 + 1 + (52 - n.log2) = 53 by omega]; rfl
    have hmantissa : 2 ^ 52 + nearestBits n 1 % 2 ^ 52 = n * twoTo (52 - n.log2) := by omega
    have hexponent : ((nearestBits n 1 / 2 ^ 52 : Nat) : Int) - 1075 = -(52 - n.log2 : Nat) := by
      omega
    rw [hmantissa,hexponent,he]
    exact Dyadic.truncate_div negative n (52 - n.log2)

/-! Rounding is exact for the whole numbers that are doubles, and gives the nearest one for others. -/

def Brief (n : Nat) : Prop := ∃ c j, c < twoTo 53 ∧ n = c * twoTo j

theorem Brief.dvd {m : Nat} (hm : Brief m) (hle : twoTo n.log2 ≤ m) : twoTo (n.log2 - 52) ∣ m := by
  obtain ⟨c,j,hc,rfl⟩ := hm
  have hlt : twoTo n.log2 < twoTo (53 + j) := by
    rw [twoTo_add]
    exact Nat.lt_of_le_of_lt hle (Nat.mul_lt_mul_of_pos_right hc (twoTo_pos _))
  have hexponent : n.log2 < 53 + j := (Nat.pow_lt_pow_iff_right (by decide)).1 hlt
  exact Nat.dvd_mul_left_of_dvd (Nat.pow_dvd_pow 2 (by omega)) c

theorem roundQuotient_mul_eq {a d : Nat} (hd : 0 < d) : roundQuotient a d * d = a ↔ d ∣ a := by
  constructor
  · exact fun h => ⟨_,h.symm.trans (Nat.mul_comm _ _)⟩
  · rintro ⟨k,rfl⟩
    have hround : roundQuotient (d * k) d = k := by
      unfold roundQuotient
      simp [hd]
    rw [hround,Nat.mul_comm]

theorem rounded_eq_self_iff : rounded n = n ↔ Brief n := by
  unfold rounded
  rw [roundQuotient_mul_eq (twoTo_pos _)]
  constructor
  · rintro ⟨c,hc⟩
    refine ⟨c,n.log2 - 52,?_,hc.trans (Nat.mul_comm _ _)⟩
    refine Nat.lt_of_mul_lt_mul_left (a := twoTo (n.log2 - 52)) ?_
    calc
      twoTo (n.log2 - 52) * c
      _ = n := hc.symm
      _ < twoTo (n.log2 + 1) := Nat.lt_log2_self
      _ ≤ twoTo (n.log2 - 52 + 53) := twoTo_mono (by omega)
      _ = twoTo (n.log2 - 52) * twoTo 53 := twoTo_add _ _
  · intro h
    rcases Nat.eq_zero_or_pos n with rfl | hpos
    · exact Nat.dvd_zero _
    · exact h.dvd (le_of_log2 (Nat.ne_of_gt hpos)).1

theorem roundQuotient_nearest {a d : Nat} (hd : 0 < d) (k : Nat) :
    ((a : Int) - (roundQuotient a d * d : Nat)).natAbs ≤ ((a : Int) - (k * d : Nat)).natAbs := by
  have hsplit := Nat.div_add_mod' a d
  have hrest := Nat.mod_lt a hd
  have hside : k * d ≤ a / d * d ∨ a / d * d + d ≤ k * d := by
    rcases Nat.lt_or_ge (a / d) k with h | h
    · exact .inr ((Nat.succ_mul _ _).symm.le.trans (Nat.mul_le_mul_right d h))
    · exact .inl (Nat.mul_le_mul_right d h)
  rcases roundQuotient_cases a d with ⟨he,hhalf⟩ | ⟨he,hhalf⟩ <;> rw [he]
  · omega
  · rw [Nat.succ_mul]
    omega

theorem rounded_nearest {m : Nat} (hm : Brief m) :
    ((n : Int) - rounded n).natAbs ≤ ((n : Int) - m).natAbs := by
  rcases Nat.eq_zero_or_pos n with rfl | hpos
  · exact Nat.zero_le _
  have hpower : Brief (twoTo n.log2) := ⟨1,n.log2,by decide,(Nat.one_mul _).symm⟩
  have hlow := (le_of_log2 (Nat.ne_of_gt hpos)).1
  rcases Nat.lt_or_ge m (twoTo n.log2) with hlt | hle
  · obtain ⟨k,hk⟩ := hpower.dvd (n := n) (Nat.le_refl _)
    have hnear := roundQuotient_nearest (a := n) (twoTo_pos (n.log2 - 52)) k
    rw [Nat.mul_comm k,← hk] at hnear
    unfold rounded
    omega
  · obtain ⟨k,rfl⟩ := hm.dvd hle
    rw [Nat.mul_comm]
    exact roundQuotient_nearest (twoTo_pos _) k

end StepGraph.Decimal
