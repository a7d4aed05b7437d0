import StepGraph.Proofs.DateForms

/-!
Casting is stable: what a cast gives is cast to itself. A date is printed so that it is read again as
the same day or the same millisecond, or so that no form reads it at all.
-/
namespace StepGraph.Value.Cast

open Text Time

variable {t u : Moment} {c : Char}

theorem valid_of_asUtc (ht : t.Valid) (h : asUtc t = .ok u) : u.Valid := by
  unfold asUtc at h
  split at h
  · cases h
    exact ht
  · split at h
    · rename_i hutc
      cases h
      unfold Moment.inUtc? at hutc
      split at hutc
      · cases hutc
      · exact (Moment.valid_of_ofTicks? hutc).1
    · cases h

theorem isDigit_padded {width n : Nat} (h : c ∈ (padded width n).toList) : c.isDigit = true := by
  rw [padded,String.toList_ofList,List.mem_append] at h
  rcases h with h | h
  · rw [List.eq_of_mem_replicate h]
    decide
  · exact isDigit_of_mem_digits h

theorem toList_dateText (t : Moment) : (dateText t).toList = Nat.toDigits 10 t.year ++
    '-' :: ((padded 2 t.month).toList ++ '-' :: (padded 2 t.day).toList) := by
  simp [dateText]

def clockChars (t : Moment) : List Char :=
  (padded 2 t.hour).toList ++ ':' :: ((padded 2 t.minute).toList ++ ':' ::
    ((padded 2 t.second).toList ++ '.' :: (padded 3 (t.micro / 1000)).toList))

theorem toList_dateTimeText (t : Moment) :
    (dateTimeText t).toList = (dateText t).toList ++ 'T' :: (clockChars t ++ ['Z']) := by
  simp [dateTimeText,Moment.timeText,clockChars]

theorem mem_dateText (h : c ∈ (dateText t).toList) : c.isDigit = true ∨ c = '-' := by
  rw [toList_dateText] at h
  simp only [List.mem_append,List.mem_cons] at h
  rcases h with h | rfl | h | rfl | h
  · exact .inl (isDigit_of_mem_digits h)
  · exact .inr rfl
  · exact .inl (isDigit_padded h)
  · exact .inr rfl
  · exact .inl (isDigit_padded h)

theorem mem_clockChars (h : c ∈ clockChars t) : c.isDigit = true ∨ c ∈ [':','.'] := by
  unfold clockChars at h
  simp only [List.mem_append,List.mem_cons] at h
  rcases h with h | rfl | h | rfl | h | rfl | h
  all_goals first | exact .inl (isDigit_padded h) | exact .inr (by decide)

theorem plain_of_isDigit (h : c.isDigit = true ∨ c ∈ ['-',':','.','T','Z','+']) :
    c.toNat < 128 ∧ isBlank c = false ∧ c ≠ '/' := by
  rcases h with h | h
  · obtain ⟨hlow,hhigh⟩ := toNat_of_isDigit h
    refine ⟨by omega,isBlank_of_isDigit h,?_⟩
    rintro rfl
    exact absurd hlow (by decide)
  · have hmarks : ∀ c ∈ ['-',':','.','T','Z','+'], c.toNat < 128 ∧ isBlank c = false ∧ c ≠ '/' :=
      forall_mem_of_all (by decide)
    exact hmarks c h

theorem plain_dateText (h : c ∈ (dateText t).toList) :
    c.toNat < 128 ∧ isBlank c = false ∧ c ≠ '/' :=
  plain_of_isDigit ((mem_dateText h).imp_right fun he => by rw [he]; decide)

theorem plain_clockChars (h : c ∈ clockChars t) : c.toNat < 128 ∧ isBlank c = false ∧ c ≠ '/' := by
  have hmarks : ∀ c ∈ [':','.'], c ∈ ['-',':','.','T','Z','+'] := forall_mem_of_all (by decide)
  exact plain_of_isDigit ((mem_clockChars h).imp_right (hmarks c))

theorem plain_dateTimeText (h : c ∈ (dateTimeText t).toList) :
    c.toNat < 128 ∧ isBlank c = false ∧ c ≠ '/' := by
  rw [toList_dateTimeText] at h
  simp only [List.mem_append,List.mem_cons,List.not_mem_nil,or_false] at h
  rcases h with h | rfl | h | rfl
  · exact plain_dateText h
  · decide
  · exact plain_clockChars h
  · decide

theorem daysInMonth_le (y m : Nat) : daysInMonth y m ≤ 31 := by
  unfold daysInMonth
  split <;> split <;> decide

theorem digits_eq_padded {n : Nat} (h : 1000 ≤ n) :
    Nat.toDigits 10 n = (padded 4 n).toList := by
  have hlength : ¬(Nat.toDigits 10 n).length ≤ 3 := by
    rw [Decimal.length_digits_le (by decide)]
    exact Nat.not_lt.2 h
  rw [padded,String.toList_ofList,Nat.sub_eq_zero_of_le (by omega)]
  rfl

theorem zeroOffset_dateText (u : Moment) : Form.zeroOffset (dateText u) = dateText u := by
  have hends : endsWith (dateText u) "Z" = false := by
    rw [← Bool.not_eq_true]
    intro h
    have hz : 'Z' ∈ (dateText u).toList :=
      (List.isSuffixOf_iff_suffix.1 h).subset List.mem_cons_self
    exact absurd (mem_dateText hz) (by decide)
  rw [Form.zeroOffset,hends]
  rfl

theorem toList_zeroOffset (u : Moment) : (Form.zeroOffset (dateTimeText u)).toList =
    (dateText u).toList ++ 'T' :: (clockChars u ++ "+00:00".toList) := by
  have hchars : (dateTimeText u).toList = ((dateText u).toList ++ 'T' :: clockChars u) ++ ['Z'] := by
    rw [toList_dateTimeText]
    simp
  have hends : endsWith (dateTimeText u) "Z" = true :=
    List.isSuffixOf_iff_suffix.2 ⟨_,hchars.symm⟩
  have hlength : (dateTimeText u).length - 1 = ((dateText u).toList ++ 'T' :: clockChars u).length := by
    rw [← String.length_toList,hchars,List.length_append]
    exact Nat.add_sub_cancel _ 1
  rw [Form.zeroOffset,if_pos hends,dropBack,String.toList_append,String.toList_ofList,hlength,hchars,
    List.take_left]
  simp

theorem ascii_zeroOffset (h : c ∈ (Form.zeroOffset (dateTimeText u)).toList) : c.toNat < 128 := by
  have hzero : ∀ c ∈ "+00:00".toList, c.toNat < 128 := forall_mem_of_all (by decide)
  rw [toList_zeroOffset] at h
  simp only [List.mem_append,List.mem_cons] at h
  rcases h with h | rfl | h | h
  · exact (plain_dateText h).1
  · decide
  · exact (plain_clockChars h).1
  · exact hzero c h

theorem dateText_spelled (hu : u.Valid) (hy : 1000 ≤ u.year) :
    ∃ ys ms ds, Iso.SpellsNumber 4 u.year ys ∧ Iso.SpellsNumber 2 u.month ms ∧
      Iso.SpellsNumber 2 u.day ds ∧
      (dateText u).toList = ys ++ '-' :: (ms ++ '-' :: ds) := by
  obtain ⟨⟨-,-,hmonth,-,hday⟩,hlast⟩ := validDate_iff.1 hu.date
  have hdays := daysInMonth_le u.year u.month
  refine ⟨_,_,_,Iso.spellsNumber_padded (by decide) ?_,Iso.spellsNumber_padded (by decide) ?_,
    Iso.spellsNumber_padded (by decide) ?_,?_⟩
  · exact Nat.lt_succ_of_le hlast
  · exact Nat.lt_of_le_of_lt hmonth (by decide)
  · exact Nat.lt_of_le_of_lt (hday.trans hdays) (by decide)
  · rw [toList_dateText,digits_eq_padded hy]

theorem readMoment_dateText (hu : u.Valid) (hy : 1000 ≤ u.year) :
    Form.readMoment (dateText u) = .ok (some { year := u.year, month := u.month, day := u.day }) := by
  obtain ⟨ys,ms,ds,hys,hms,hds,hchars⟩ := dateText_spelled hu hy
  have hbytes := Iso.byteChars_ascii fun c hc => (plain_dateText (t := u) hc).1
  have hiso := Iso.read?_day hys hms hds (hbytes.trans hchars)
  rw [Iso.moment?_eq hu.date rfl rfl] at hiso
  rw [Form.readMoment,zeroOffset_dateText,hiso]

theorem readMoment_dateTimeText (hu : u.Valid) (hy : 1000 ≤ u.year) :
    Form.readMoment (dateTimeText u) =
      .ok (some { u with micro := u.micro / 1000 * 1000, offset := some 0 }) := by
  obtain ⟨ys,ms,ds,hys,hms,hds,hchars⟩ := dateText_spelled hu hy
  have hhour : Iso.SpellsNumber 2 u.hour (padded 2 u.hour).toList :=
    Iso.spellsNumber_padded (by decide) (Nat.lt_trans hu.hour_lt (by decide))
  have hminute : Iso.SpellsNumber 2 u.minute (padded 2 u.minute).toList :=
    Iso.spellsNumber_padded (by decide) (Nat.lt_trans hu.minute_lt (by decide))
  have hsecond : Iso.SpellsNumber 2 u.second (padded 2 u.second).toList :=
    Iso.spellsNumber_padded (by decide) (Nat.lt_trans hu.second_lt (by decide))
  have hmillis : Iso.SpellsNumber 3 (u.micro / 1000) (padded 3 (u.micro / 1000)).toList :=
    Iso.spellsNumber_padded (by decide) (Nat.div_lt_of_lt_mul hu.micro_lt)
  have hbytes : Iso.byteChars (Form.zeroOffset (dateTimeText u)) = ys ++ '-' :: (ms ++ '-' ::
      (ds ++ 'T' :: (clockChars u ++ "+00:00".toList))) := by
    rw [Iso.byteChars_ascii fun c => ascii_zeroOffset,toList_zeroOffset,hchars]
    simp
  have hiso := Iso.read?_instant hys hms hds hhour hminute hsecond hmillis hbytes
  have hclock : Iso.validClock ⟨u.hour,u.minute,u.second,u.micro / 1000 * 1000⟩ = true := by
    simp [Iso.validClock,hu.hour_lt,hu.minute_lt,hu.second_lt]
  rw [Iso.moment?_eq hu.date hclock rfl] at hiso
  rw [Form.readMoment,hiso]

/-- What is printed of a year before 1000 has too few figures to be read. -/
theorem readMoment_early (hy : u.year < 1000) :
    Form.readMoment (dateText u) = .ok none ∧ Form.readMoment (dateTimeText u) = .ok none := by
  have hlength : (Nat.toDigits 10 u.year).length ≤ 3 :=
    (Decimal.length_digits_le (by decide)).2 hy
  have hfigures (rest : List Char) : Iso.takeFigures 4 ((dateText u).toList ++ rest) = none := by
    obtain ⟨k,hk⟩ := Nat.exists_eq_add_of_le' (show 1 ≤ 4 - (Nat.toDigits 10 u.year).length by omega)
    have hdash : '-' ∈ ((dateText u).toList ++ rest).take 4 := by
      rw [toList_dateText,List.append_assoc,List.take_append,hk]
      simp
    unfold Iso.takeFigures
    dsimp only
    rw [if_neg]
    intro h
    exact absurd (List.all_eq_true.1 (Bool.and_eq_true_iff.1 h).2 _ hdash) (by decide)
  constructor
  · refine Form.readMoment_of_plain (Iso.read?_of_takeFigures ?_)
      (fun h => (plain_dateText h).2.2 rfl) fun c hc => (plain_dateText hc).2.1
    rw [zeroOffset_dateText,Iso.byteChars_ascii fun c hc => (plain_dateText hc).1]
    simpa using hfigures []
  · refine Form.readMoment_of_plain (Iso.read?_of_takeFigures ?_)
      (fun h => (plain_dateTimeText h).2.2 rfl) fun c hc => (plain_dateTimeText hc).2.1
    rw [Iso.byteChars_ascii fun c => ascii_zeroOffset,toList_zeroOffset]
    exact hfigures _

theorem asUtc_zero (hu : u.Valid) (h : u.offset = some 0) : asUtc u = .ok u := by
  have hsame : { u with offset := some 0 } = u := by rw [← h]
  have hutc : u.inUtc? = some u := by
    rw [Moment.inUtc?,h]
    dsimp only
    rw [Int.sub_zero,Moment.ofTicks?_ticks hu,hsame]
  rw [asUtc,h,hutc]
  rfl

structure RereadAsPrinted (render : Moment → String) : Prop where
  trim : ∀ u, Text.trim (render u) = render u
  ne_empty : ∀ u, (render u).isEmpty = false
  reread : ∀ u : Moment, u.Valid → Form.readMoment (render u) = .ok none ∨
    ∃ t v, Form.readMoment (render u) = .ok (some t) ∧ asUtc t = .ok v ∧ render v = render u

theorem rereadAsPrinted_dateText : RereadAsPrinted dateText where
  trim u := trim_eq_self fun c hc => (plain_dateText hc).2.1
  ne_empty u := by
    rw [← Bool.not_eq_true,String.isEmpty_iff,← String.toList_inj,toList_dateText]
    simp
  reread u hu := by
    rcases Nat.lt_or_ge u.year 1000 with hy | hy
    · exact .inl (readMoment_early hy).1
    · exact .inr ⟨_,_,readMoment_dateText hu hy,rfl,rfl⟩

theorem rereadAsPrinted_dateTimeText : RereadAsPrinted dateTimeText where
  trim u := trim_eq_self fun c hc => (plain_dateTimeText hc).2.1
  ne_empty u := by
    rw [← Bool.not_eq_true,String.isEmpty_iff,← String.toList_inj,toList_dateTimeText]
    simp
  reread u hu := by
    rcases Nat.lt_or_ge u.year 1000 with hy | hy
    · exact .inl (readMoment_early hy).2
    · have hmicro : u.micro / 1000 * 1000 < 1000000 :=
        Nat.lt_of_le_of_lt (Nat.div_mul_le_self _ _) hu.micro_lt
      have hcut := asUtc_zero (u := { u with micro := u.micro / 1000 * 1000, offset := some 0 })
        ⟨hu.date,hu.hour_lt,hu.minute_lt,hu.second_lt,hmicro⟩ rfl
      refine .inr ⟨_,_,readMoment_dateTimeText hu hy,hcut,?_⟩
      have hmillis : u.micro / 1000 * 1000 / 1000 = u.micro / 1000 := Nat.mul_div_cancel _ (by decide)
      unfold dateTimeText
      rw [hmillis]
      rfl

variable {render : Moment → String} {s : String} {y : Value}

theorem dated_eq (render : Moment → String) (hs : s.isEmpty = false) : dated render s =
    match Form.readMoment s with
    | .error f => .error f
    | .ok none => .ok (.text s)
    | .ok (some t) => (asUtc t).map fun u => .text (render u) := by
  unfold dated
  rw [hs,if_neg Bool.false_ne_true]
  rcases Form.readMoment s with f | _ | t
  · rfl
  · rfl
  · generalize asUtc t = utc
    cases utc <;> rfl

theorem RereadAsPrinted.dated (hr : RereadAsPrinted render) (hu : u.Valid) :
    dated render (render u) = .ok (.text (render u)) := by
  rw [dated_eq render (hr.ne_empty u)]
  rcases hr.reread u hu with h | ⟨t,v,hread,hutc,hsame⟩
  · rw [h]
  · rw [hread]
    dsimp only
    rw [hutc,← hsame]
    rfl

theorem RereadAsPrinted.dated_again (hr : RereadAsPrinted render) (hs : Text.trim s = s)
    (h : Cast.dated render s = .ok y) :
    y = .null ∨ ∃ r, y = .text r ∧ Text.trim r = r ∧ Cast.dated render r = .ok (.text r) := by
  cases hempty : s.isEmpty with
  | true =>
    rw [Cast.dated,hempty] at h
    cases h
    exact .inl rfl
  | false =>
    have hcast := h
    rw [dated_eq render hempty] at h
    split at h
    · cases h
    · cases h
      exact .inr ⟨s,rfl,hs,hcast⟩
    · rename_i t hread
      cases hutc : asUtc t with
      | error f =>
        rw [hutc] at h
        cases h
      | ok u =>
        rw [hutc] at h
        cases h
        have hu := valid_of_asUtc (Form.valid_of_readMoment hread) hutc
        exact .inr ⟨_,rfl,hr.trim u,hr.dated hu⟩

theorem trim_rawText {raw : Value} (h : rawText raw = .ok s) : Text.trim s = s := by
  unfold rawText at h
  split at h
  · cases h
    split <;> rfl
  · split at h
    · cases h
      split
      · exact Decimal.trim_toString _
      · exact trim_eq_self (Decimal.isBlank_showFloat _)
    · cases h
      exact trim_eq_self (Decimal.isBlank_showFloat _)
  · cases hshown : raw.display with
    | error f =>
      rw [hshown] at h
      exact nomatch h
    | ok t =>
      rw [hshown] at h
      obtain rfl : Text.trim t = s := Except.ok.inj h
      exact trim_trim t

def isCapital (c : Char) : Bool := c.isAlphanum && upperChar c == [c]

theorem toNat_of_isAlphanum (h : c.isAlphanum = true) : c.toNat < 128 := by
  have hranges : ((decide (65 ≤ c.toNat ∧ c.toNat ≤ 90) ||
      decide (97 ≤ c.toNat) && decide (c.toNat ≤ 122)) ||
      decide (48 ≤ c.toNat) && decide (c.toNat ≤ 57)) = true := h
  simp only [Bool.or_eq_true,Bool.and_eq_true,decide_eq_true_eq] at hranges
  omega

theorem capitals_of_isAlphanum (h : c.isAlphanum = true) :
    isBlank c = false ∧ (upperChar c).all isCapital = true := by
  have hall : ∀ n < 128, (Char.ofNat n).isAlphanum = true →
      isBlank (Char.ofNat n) = false ∧ (upperChar (Char.ofNat n)).all isCapital = true := by
    decide +kernel
  have hc := hall c.toNat (toNat_of_isAlphanum h)
  rw [Char.ofNat_toNat] at hc
  exact hc h

theorem isCapital_registration (h : c ∈ (registration s).toList) :
    c.isAlphanum = true ∧ upperChar c = [c] := by
  rw [registration,upper,String.toList_ofList,String.toList_ofList,List.mem_flatMap] at h
  obtain ⟨d,hd,hc⟩ := h
  have hcapital := List.all_eq_true.1 (capitals_of_isAlphanum (List.mem_filter.1 hd).2).2 c hc
  simpa [isCapital] using hcapital

theorem trim_registration (s : String) : Text.trim (registration s) = registration s :=
  trim_eq_self fun _ hc => (capitals_of_isAlphanum (isCapital_registration hc).1).1

theorem registration_again (s : String) : registration (registration s) = registration s := by
  have hupper {cs : List Char} (h : ∀ c ∈ cs, upperChar c = [c]) : cs.flatMap upperChar = cs := by
    induction cs with
    | nil => rfl
    | cons c cs ih =>
      rw [List.flatMap_cons,h c List.mem_cons_self,ih fun d hd => h d (List.mem_cons_of_mem c hd)]
      rfl
  have hkept : (registration s).toList.filter (fun c => c.isAlphanum) = (registration s).toList :=
    List.filter_eq_self.2 fun c hc => (isCapital_registration hc).1
  rw [registration,hkept,upper,String.toList_ofList,hupper fun c hc => (isCapital_registration hc).2,
    String.ofList_toList]

def ofText (type : DataType) (s : String) : Except Fault Value :=
  match type with
  | .number => .ok (if s.isEmpty then .null else number s)
  | .integer => leadingWhole s
  | .boolean => .ok (.bool (s == "true" || s == "1" || s == "yes"))
  | .dateOnly => dated dateText s
  | .dateTime => dated dateTimeText s
  | .registration => .ok (.text (registration s))
  | .plain => .ok (.text s)

variable {raw : Value} {type : DataType}

theorem cast_eq (type : DataType) (h : raw.isNull = false) :
    raw.cast type = (rawText raw).bind (ofText type) := by
  unfold cast
  rw [h,if_neg Bool.false_ne_true]
  cases rawText raw with
  | error f => rfl
  | ok s => cases type <;> rfl

theorem cast_text (type : DataType) (hs : Text.trim s = s) : (text s).cast type = ofText type s := by
  have hraw : rawText (text s) = .ok (Text.trim s) := rfl
  rw [cast_eq type rfl,hraw,hs]
  rfl

theorem rawText_int {i : Int} (h : i.natAbs < Json.writtenLimit) :
    rawText (int i) = .ok (toString i) := by
  have hshown : (int i).display = .ok (toString i) := by
    have hnone : Json.fault? false (int i) = none := writable_int.2 h
    have htext : (int i).shown = toString i := by simp only [shown,scalarDisplay]
    rw [← htext]
    unfold display
    rw [hnone]
  change (do return Text.trim (← (int i).display)) = _
  rw [hshown]
  exact congrArg Except.ok (Decimal.trim_toString i)

theorem cast_int {i : Int} (type : DataType) (h : i.natAbs < Json.writtenLimit) :
    (int i).cast type = ofText type (toString i) := by
  rw [cast_eq type rfl,rawText_int h]
  rfl

theorem leadingWhole_cases (h : leadingWhole s = .ok y) :
    y = .null ∨ ∃ i : Int, y = .int i ∧ i.natAbs < Json.writtenLimit := by
  unfold leadingWhole at h
  extract_lets signed digits n at h
  split at h
  · cases h
    exact .inl rfl
  · split at h
    · cases h
    · rename_i hlength
      have hlt : digitsToNat digits < Json.writtenLimit :=
        Nat.lt_of_lt_of_le (digitsToNat_lt digits) (tenTo_mono (Nat.not_lt.1 hlength))
      refine .inr ⟨_,(Except.ok.inj h).symm,?_⟩
      split
      · rwa [Int.natAbs_neg]
      · exact hlt

theorem cast_again (htype : type ≠ .number) (h : raw.cast type = .ok y) : y.cast type = .ok y := by
  cases hnull : raw.isNull with
  | true =>
    unfold cast at h
    rw [hnull] at h
    cases h
    rfl
  | false =>
    rw [cast_eq type hnull] at h
    cases hraw : rawText raw with
    | error f =>
      rw [hraw] at h
      cases h
    | ok s =>
      -- the text that is cast is trimmed, and so is what each type makes of it
      have hs := trim_rawText hraw
      replace h : ofText type s = .ok y := by rwa [hraw] at h
      cases type with
      | number => exact absurd rfl htype
      | integer =>
        rcases leadingWhole_cases h with rfl | ⟨i,rfl,hi⟩
        · rfl
        · exact (cast_int .integer hi).trans (leadingWhole_toString hi)
      | boolean =>
        cases h
        generalize (s == "true" || s == "1" || s == "yes") = b
        cases b <;> rfl
      | dateOnly =>
        rcases rereadAsPrinted_dateText.dated_again hs h with rfl | ⟨r,rfl,hr,hcast⟩
        · rfl
        · exact (cast_text .dateOnly hr).trans hcast
      | dateTime =>
        rcases rereadAsPrinted_dateTimeText.dated_again hs h with rfl | ⟨r,rfl,hr,hcast⟩
        · rfl
        · exact (cast_text .dateTime hr).trans hcast
      | registration =>
        cases h
        rw [cast_text .registration (trim_registration s)]
        exact congrArg (fun r => Except.ok (text r)) (registration_again s)
      | plain =>
        cases h
        exact cast_text .plain hs

theorem take_dateTimeText (hu : u.Valid) (hy : 1000 ≤ u.year) :
    String.ofList ((dateTimeText u).toList.take 10) = dateText u := by
  obtain ⟨ys,ms,ds,hys,hms,hds,hchars⟩ := dateText_spelled hu hy
  have hlength : (dateText u).toList.length = 10 := by
    simp [hchars,hys.length,hms.length,hds.length]
  rw [toList_dateTimeText,List.take_left' hlength,String.ofList_toList]

theorem readMoment_empty : Form.readMoment "" = .ok none := by
  have hoffset : Form.zeroOffset "" = "" := rfl
  have hbytes : Iso.byteChars "" = [] := Iso.byteChars_ascii (by simp)
  refine Form.readMoment_of_plain (Iso.read?_of_takeFigures ?_) (by simp) (by simp)
  rw [hoffset,hbytes]
  rfl

theorem dated_of_readMoment (hread : Form.readMoment s = .ok (some t)) (hutc : asUtc t = .ok u) :
    Cast.dated render s = .ok (.text (render u)) := by
  have hempty : s.isEmpty = false := by
    rw [← Bool.not_eq_true,String.isEmpty_iff]
    rintro rfl
    cases readMoment_empty.symm.trans hread
  rw [dated_eq render hempty,hread]
  dsimp only
  rw [hutc]
  rfl

/-- A cast value is cast to itself, whatever was cast first; only numbers are left out. The day of
an instant from the year 1000 on is printed as the first ten characters of the instant. -/
theorem cast_stable :
    (∀ (type : DataType) (raw y : Value), type ≠ .number → raw.cast type = .ok y →
      y.cast type = .ok y) ∧
    ∀ (s : String) (t u : Moment), Form.readMoment (Text.trim s) = .ok (some t) →
      asUtc t = .ok u → 1000 ≤ u.year → ∃ d, (text s).cast .dateTime = .ok (text d) ∧
        (text s).cast .dateOnly = .ok (text (String.ofList (d.toList.take 10))) := by
  refine ⟨fun type raw y htype h => cast_again htype h,fun s t u hread hutc hy => ?_⟩
  have hu := valid_of_asUtc (Form.valid_of_readMoment hread) hutc
  have hcast (type : DataType) : (text s).cast type = ofText type (Text.trim s) := cast_eq type rfl
  refine ⟨dateTimeText u,?_,?_⟩
  · rw [hcast .dateTime]
    exact dated_of_readMoment hread hutc
  · rw [hcast .dateOnly,take_dateTimeText hu hy]
    exact dated_of_readMoment hread hutc

/-- An evening west of Greenwich is on the next day. -/
theorem cast_stable_evening :
    let mail := text "5 Jan 2024 23:30:00 -0500"
    let printed := text "2024-01-06T04:30:00.000Z"
    mail.cast .dateTime = .ok printed ∧ printed.cast .dateTime = .ok printed ∧
      mail.cast .dateOnly = .ok (text "2024-01-06") := by
  let evening : Moment :=
    { year := 2024, month := 1, day := 5, hour := 23, minute := 30, offset := some (-18000000000) }
  let night : Moment := { evening with day := 6, hour := 4, offset := some 0 }
  intro mail printed
  have htrim : Text.trim "5 Jan 2024 23:30:00 -0500" = "5 Jan 2024 23:30:00 -0500" := by
    decide +kernel
  have hiso : Iso.read? (Form.zeroOffset "5 Jan 2024 23:30:00 -0500") = none := by decide +kernel
  have hmail : Mail.read "5 Jan 2024 23:30:00 -0500" = .ok (some evening) := rfl
  have hread : Form.readMoment (Text.trim "5 Jan 2024 23:30:00 -0500") = .ok (some evening) := by
    rw [htrim,Form.readMoment,hiso,hmail]
  have hutc : asUtc evening = .ok night := by
    have hnight : evening.inUtc? = some night := by decide +kernel
    rw [asUtc,hnight]
    rfl
  obtain ⟨d,htime,hday⟩ := cast_stable.2 _ _ _ hread hutc (by decide)
  have hprinted : mail.cast .dateTime = .ok printed := by
    have hshown : dateTimeText night = "2024-01-06T04:30:00.000Z" := by decide +kernel
    rw [cast_eq .dateTime rfl]
    exact (dated_of_readMoment hread hutc).trans (by rw [hshown])
  obtain rfl : d = "2024-01-06T04:30:00.000Z" := by
    have hsame : text d = text "2024-01-06T04:30:00.000Z" :=
      Except.ok.inj (htime.symm.trans hprinted)
    cases hsame
    rfl
  exact ⟨hprinted,cast_stable.1 .dateTime mail printed (by decide) hprinted,hday⟩

end StepGraph.Value.Cast
