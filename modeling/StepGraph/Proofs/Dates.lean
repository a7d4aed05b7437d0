import Mathlib.Data.Nat.Init
import StepGraph.Time.Moment

/-!
The calendar counts days, exactly: the date of a day has that day's number, and the moment of a count
of microseconds has that count, so later readings of a clock give later moments. A day has one date,
and a moment within the years that there are is read back from its count.
-/
namespace StepGraph.Time

theorem daysBeforeYear_cycles (q : Nat) {c a y : Nat} (hc : c ≤ 3) (ha : a ≤ 24) (hy : y ≤ 3) :
    daysBeforeYear (q * 400 + c * 100 + a * 4 + y + 1) =
      q * 146097 + c * 36524 + a * 1461 + y * 365 := by
  have h4 : (q * 400 + c * 100 + a * 4 + y) / 4 = q * 100 + c * 25 + a := by omega
  have h100 : (q * 400 + c * 100 + a * 4 + y) / 100 = q * 4 + c := by omega
  have h400 : (q * 400 + c * 100 + a * 4 + y) / 400 = q := by omega
  unfold daysBeforeYear
  rw [Nat.add_sub_cancel,h4,h100,h400]
  omega

theorem daysBeforeYear_yearOfDay (n : Nat) :
    daysBeforeYear (yearOfDay n).1 + (yearOfDay n).2 = n - 1 := by
  unfold yearOfDay
  simp only
  rw [daysBeforeYear_cycles _ (by omega) (by omega) (by omega)]
  omega

theorem daysBeforeMonth_succ (y : Nat) {m : Nat} (h : 1 ≤ m) :
    daysBeforeMonth y (m + 1) = daysBeforeMonth y m + daysInMonth y m := by
  unfold daysBeforeMonth
  obtain ⟨k,rfl⟩ := Nat.exists_eq_add_of_le' h
  simp only [Nat.add_sub_cancel,List.range_succ,List.foldl_append,List.foldl_cons,List.foldl_nil]

theorem daysBeforeMonth_monthDay (y : Nat) {m : Nat} (h : 1 ≤ m) (rest fuel : Nat) :
    daysBeforeMonth y (monthDay y m rest fuel).1 + (monthDay y m rest fuel).2 =
      daysBeforeMonth y m + rest + 1 := by
  induction fuel generalizing m rest with
  | zero => rfl
  | succ fuel ih =>
    unfold monthDay
    split
    · rfl
    · rw [ih (Nat.le_add_left 1 m),daysBeforeMonth_succ y h]
      omega

theorem dayNumber_dateOfDay {n : Nat} (h : 1 ≤ n) :
    dayNumber (dateOfDay n).1 (dateOfDay n).2.1 (dateOfDay n).2.2 = n := by
  have hyear := daysBeforeYear_yearOfDay n
  have hmonth := daysBeforeMonth_monthDay (yearOfDay n).1 (Nat.le_refl 1) (yearOfDay n).2 11
  have hfirst : daysBeforeMonth (yearOfDay n).1 1 = 0 := rfl
  change daysBeforeYear (yearOfDay n).1 + daysBeforeMonth (yearOfDay n).1
    (monthDay (yearOfDay n).1 1 (yearOfDay n).2 11).1 +
      (monthDay (yearOfDay n).1 1 (yearOfDay n).2 11).2 = n
  omega

namespace Moment

theorem ticks_ofTicks? {n : Int} {offset : Option Int} {t : Moment}
    (h : ofTicks? n offset = some t) : t.ticks = n := by
  unfold ofTicks? at h
  split at h
  · cases h
  · simp only at h
    split at h
    · cases h
    · cases h
      have hday := dayNumber_dateOfDay (n := n.toNat / 86400000000 + 1) (by omega)
      unfold ticks
      simp only
      rw [hday]
      unfold Time.day Time.second
      omega

theorem ticks_le_of_ofEpoch? {a b : Int} {t u : Moment} (ht : ofEpoch? a = some t)
    (hu : ofEpoch? b = some u) (h : a ≤ b) : t.ticks ≤ u.ticks := by
  rw [ticks_ofTicks? ht,ticks_ofTicks? hu]
  unfold Time.second
  omega

end Moment

def daysInYear (y : Nat) : Nat := if isLeap y then 366 else 365

def IsDate (y m d : Nat) : Prop := 1 ≤ y ∧ 1 ≤ m ∧ m ≤ 12 ∧ 1 ≤ d ∧ d ≤ daysInMonth y m

theorem validDate_iff {y m d : Nat} : validDate y m d = true ↔ IsDate y m d ∧ y ≤ 9999 := by
  simp only [validDate,IsDate,Bool.and_eq_true,decide_eq_true_eq]
  constructor
  · rintro ⟨⟨⟨⟨⟨hy,hlast⟩,hm⟩,hm'⟩,hd⟩,hd'⟩
    exact ⟨⟨hy,hm,hm',hd,hd'⟩,hlast⟩
  · rintro ⟨⟨hy,hm,hm',hd,hd'⟩,hlast⟩
    exact ⟨⟨⟨⟨⟨hy,hlast⟩,hm⟩,hm'⟩,hd⟩,hd'⟩

theorem succ_div_mod (k d : Nat) :
    (k + 1) % d = 0 ∧ (k + 1) / d = k / d + 1 ∨ (k + 1) % d ≠ 0 ∧ (k + 1) / d = k / d := by
  rw [Nat.succ_div]
  split
  · rename_i h
    exact .inl ⟨Nat.mod_eq_zero_of_dvd h,rfl⟩
  · rename_i h
    exact .inr ⟨fun h0 => h (Nat.dvd_of_mod_eq_zero h0),rfl⟩

theorem daysBeforeYear_succ {y : Nat} (hy : 1 ≤ y) :
    daysBeforeYear (y + 1) = daysBeforeYear y + daysInYear y := by
  obtain ⟨k,rfl⟩ := Nat.exists_eq_add_of_le' hy
  have hle : k / 100 ≤ k / 4 := Nat.div_le_div_left (by decide) (by decide)
  have h4 := succ_div_mod k 4
  have h100 := succ_div_mod k 100
  have h400 := succ_div_mod k 400
  have hcentury : (k + 1) % 100 = 0 → (k + 1) % 4 = 0 := by omega
  have hcycle : (k + 1) % 400 = 0 → (k + 1) % 100 = 0 := by omega
  unfold daysBeforeYear daysInYear isLeap
  simp only [Nat.add_sub_cancel,Bool.and_eq_true,Bool.or_eq_true,beq_iff_eq,bne_iff_ne]
  generalize (k + 1) % 4 = m4, (k + 1) % 100 = m100, (k + 1) % 400 = m400,
    (k + 1) / 4 = q4, (k + 1) / 100 = q100, (k + 1) / 400 = q400 at *
  split <;> omega

theorem daysBeforeYear_lt {y z : Nat} (hy : 1 ≤ y) (h : y < z) :
    daysBeforeYear y + daysInYear y ≤ daysBeforeYear z := by
  induction z, h using Nat.le_induction with
  | base => exact Nat.le_of_eq (daysBeforeYear_succ hy).symm
  | succ z hz ih =>
    rw [daysBeforeYear_succ (by omega)]
    omega

theorem daysInYear_cycles (q : Nat) {c a r : Nat} (hc : c ≤ 3) (ha : a ≤ 24) (hr : r ≤ 3) :
    daysInYear (q * 400 + c * 100 + a * 4 + r + 1) =
      if r = 3 ∧ (a < 24 ∨ c = 3) then 366 else 365 := by
  have h4 : (q * 400 + c * 100 + a * 4 + r + 1) % 4 = (r + 1) % 4 := by omega
  have h100 : (q * 400 + c * 100 + a * 4 + r + 1) % 100 = (a * 4 + r + 1) % 100 := by omega
  have h400 : (q * 400 + c * 100 + a * 4 + r + 1) % 400 = (c * 100 + a * 4 + r + 1) % 400 := by omega
  unfold daysInYear isLeap
  rw [h4,h100,h400]
  simp only [Bool.and_eq_true,Bool.or_eq_true,beq_iff_eq,bne_iff_ne]
  split <;> split <;> omega

theorem yearOfDay_within (n : Nat) :
    1 ≤ (yearOfDay n).1 ∧ (yearOfDay n).2 < daysInYear (yearOfDay n).1 := by
  unfold yearOfDay
  dsimp only
  rw [daysInYear_cycles _ (by omega) (by omega) (by omega)]
  split <;> omega

theorem daysBeforeMonth_lt {y m k : Nat} (hm : 1 ≤ m) (h : m < k) :
    daysBeforeMonth y m + daysInMonth y m ≤ daysBeforeMonth y k := by
  induction k, h using Nat.le_induction with
  | base => exact Nat.le_of_eq (daysBeforeMonth_succ y hm).symm
  | succ k hk ih =>
    rw [daysBeforeMonth_succ y (by omega)]
    omega

theorem daysBeforeMonth_end (y : Nat) : daysBeforeMonth y 13 = daysInYear y := by
  simp [daysBeforeMonth,List.range_succ,daysInMonth,daysInYear]
  split <;> rfl

theorem monthDay_within {y m rest : Nat} (fuel : Nat) (hm : 1 ≤ m) (hfuel : m + fuel = 12)
    (h : daysBeforeMonth y m + rest < daysInYear y) :
    1 ≤ (monthDay y m rest fuel).1 ∧ (monthDay y m rest fuel).1 ≤ 12 ∧
      1 ≤ (monthDay y m rest fuel).2 ∧
      (monthDay y m rest fuel).2 ≤ daysInMonth y (monthDay y m rest fuel).1 := by
  induction fuel generalizing m rest with
  | zero =>
    obtain rfl : m = 12 := by omega
    have hend := daysBeforeMonth_succ y hm
    rw [daysBeforeMonth_end] at hend
    unfold monthDay
    dsimp only
    omega
  | succ fuel ih =>
    unfold monthDay
    split
    · dsimp only
      omega
    · exact ih (by omega) (by omega) (by rw [daysBeforeMonth_succ y hm]; omega)

theorem isDate_dateOfDay (n : Nat) :
    IsDate (dateOfDay n).1 (dateOfDay n).2.1 (dateOfDay n).2.2 := by
  obtain ⟨hy,hrest⟩ := yearOfDay_within n
  have hfirst : daysBeforeMonth (yearOfDay n).1 1 = 0 := rfl
  have hwithin := monthDay_within (y := (yearOfDay n).1) 11 (Nat.le_refl 1) rfl
    (show daysBeforeMonth (yearOfDay n).1 1 + (yearOfDay n).2 < _ by omega)
  exact ⟨hy,hwithin⟩

theorem IsDate.dayNumber_le {y m d : Nat} (h : IsDate y m d) :
    daysBeforeYear y < dayNumber y m d ∧ dayNumber y m d ≤ daysBeforeYear y + daysInYear y := by
  obtain ⟨-,hm,hm',hd,hd'⟩ := h
  have hmonth := daysBeforeMonth_lt (y := y) hm (show m < 13 by omega)
  rw [daysBeforeMonth_end] at hmonth
  unfold dayNumber
  omega

theorem IsDate.unique {y m d y' m' d' : Nat} (h : IsDate y m d) (h' : IsDate y' m' d')
    (hn : dayNumber y m d = dayNumber y' m' d') : (y,m,d) = (y',m',d') := by
  have hspan := h.dayNumber_le
  have hspan' := h'.dayNumber_le
  obtain rfl : y = y' := by
    rcases Nat.lt_trichotomy y y' with hlt | he | hlt
    · have := daysBeforeYear_lt h.1 hlt
      omega
    · exact he
    · have := daysBeforeYear_lt h'.1 hlt
      omega
  obtain ⟨-,hm,-,hd,hd'⟩ := h
  obtain ⟨-,hm',-,he,he'⟩ := h'
  unfold dayNumber at hn
  obtain rfl : m = m' := by
    rcases Nat.lt_trichotomy m m' with hlt | he | hlt
    · have := daysBeforeMonth_lt (y := y) hm hlt
      omega
    · exact he
    · have := daysBeforeMonth_lt (y := y) hm' hlt
      omega
  rw [show d = d' by omega]

theorem dateOfDay_dayNumber {y m d : Nat} (h : IsDate y m d) :
    dateOfDay (dayNumber y m d) = (y,m,d) := by
  have hspan := h.dayNumber_le
  exact (isDate_dateOfDay _).unique h (dayNumber_dateOfDay (by omega))

def lastDay : Nat := 3652059

theorem dateOfDay_year_le {n : Nat} (hn : 1 ≤ n) : (dateOfDay n).1 ≤ 9999 ↔ n ≤ lastDay := by
  have hspan := (isDate_dateOfDay n).dayNumber_le
  rw [dayNumber_dateOfDay hn] at hspan
  have hend : daysBeforeYear 10000 = lastDay := by decide
  constructor
  · intro h
    have := daysBeforeYear_lt (isDate_dateOfDay n).1 (show (dateOfDay n).1 < 10000 by omega)
    omega
  · intro h
    rcases Nat.lt_trichotomy 10000 (dateOfDay n).1 with hlt | he | hlt
    · have := daysBeforeYear_lt (by decide) hlt
      omega
    · rw [← he] at hspan
      omega
    · omega

namespace Moment

structure Valid (t : Moment) : Prop where
  date : validDate t.year t.month t.day = true
  hour_lt : t.hour < 24
  minute_lt : t.minute < 60
  second_lt : t.second < 60
  micro_lt : t.micro < 1000000

variable {n : Int} {offset : Option Int} {t : Moment}

def onDay (n rest : Nat) (offset : Option Int) : Moment :=
  { year := (dateOfDay n).1, month := (dateOfDay n).2.1, day := (dateOfDay n).2.2
    hour := rest / 1000000 / 3600, minute := rest / 1000000 / 60 % 60
    second := rest / 1000000 % 60, micro := rest % 1000000, offset := offset }

theorem ofTicks?_natCast (n : Nat) (offset : Option Int) :
    ofTicks? n offset = if 9999 < (dateOfDay (n / 86400000000 + 1)).1 then none
      else some (onDay (n / 86400000000 + 1) (n % 86400000000) offset) := by
  rcases hdate : dateOfDay (n / 86400000000 + 1) with ⟨y,m,d⟩
  unfold ofTicks? onDay
  rw [if_neg (Int.not_lt.2 (Int.natCast_nonneg n)),hdate]
  extract_lets micros days rest
  have hdays : dateOfDay days = (y,m,d) := hdate
  rw [hdays]
  rfl

theorem ofTicks?_days (days : Nat) {rest : Nat} (h : rest < 86400000000) (offset : Option Int) :
    ofTicks? (days * 86400000000 + rest : Nat) offset =
      if lastDay ≤ days then none else some (onDay (days + 1) rest offset) := by
  have hsplit : (days * 86400000000 + rest) / 86400000000 = days ∧
      (days * 86400000000 + rest) % 86400000000 = rest :=
    (Nat.div_mod_unique (by decide)).2 ⟨by omega,h⟩
  have hyear := dateOfDay_year_le (Nat.le_add_left 1 days)
  rw [ofTicks?_natCast,hsplit.1,hsplit.2]
  split
  · rw [if_pos (by omega)]
  · rw [if_neg (by omega)]

theorem ofTicks?_ticks (h : t.Valid) (offset : Option Int) :
    ofTicks? t.ticks offset = some { t with offset := offset } := by
  obtain ⟨hdate,hhour,hminute,hsecond,hmicro⟩ := h
  obtain ⟨hdate,hlast⟩ := validDate_iff.1 hdate
  have hfirst := hdate.dayNumber_le.1
  have hday := dateOfDay_dayNumber hdate
  have hyear := dateOfDay_year_le (n := dayNumber t.year t.month t.day) (by omega)
  rw [hday] at hyear
  obtain ⟨k,hk⟩ := Nat.exists_eq_add_of_le' (show 1 ≤ dayNumber t.year t.month t.day by omega)
  have hticks : t.ticks = (k * 86400000000 +
      (((t.hour * 60 + t.minute) * 60 + t.second) * 1000000 + t.micro) : Nat) := by
    unfold ticks Time.day Time.second
    omega
  rw [hticks,ofTicks?_days k (by omega),if_neg (by omega),← hk]
  unfold onDay
  rw [hday]
  congr 2 <;> omega

theorem ofTicks?_eq_none_iff : ofTicks? n offset = none ↔ n < 0 ∨ lastDay * Time.day ≤ n := by
  rcases Int.lt_or_le n 0 with hneg | hpos
  · unfold ofTicks?
    rw [if_pos hneg]
    exact iff_of_true rfl (.inl hneg)
  · obtain ⟨k,rest,hrest,rfl⟩ : ∃ k rest : Nat, rest < 86400000000 ∧
        n = (k * 86400000000 + rest : Nat) :=
      ⟨(n / 86400000000).toNat,(n % 86400000000).toNat,by omega,by omega⟩
    rw [ofTicks?_days k hrest]
    unfold Time.day Time.second
    split
    · exact iff_of_true rfl (.inr (by omega))
    · exact iff_of_false (by simp) (by omega)

theorem valid_of_ofTicks? (h : ofTicks? n offset = some t) : t.Valid ∧ t.offset = offset := by
  rcases Int.lt_or_le n 0 with hneg | hpos
  · rw [ofTicks?_eq_none_iff.2 (.inl hneg)] at h
    cases h
  · obtain ⟨k,rest,hrest,rfl⟩ : ∃ k rest : Nat, rest < 86400000000 ∧
        n = (k * 86400000000 + rest : Nat) :=
      ⟨(n / 86400000000).toNat,(n % 86400000000).toNat,by omega,by omega⟩
    rw [ofTicks?_days k hrest] at h
    split at h
    · cases h
    · cases h
      have hyear := dateOfDay_year_le (Nat.le_add_left 1 k)
      refine ⟨⟨validDate_iff.2 ⟨isDate_dateOfDay _,hyear.2 (by omega)⟩,?_,?_,?_,?_⟩,rfl⟩ <;>
        unfold onDay <;> dsimp only <;> omega

end Moment

end StepGraph.Time
