import StepGraph.Proofs.Casting

/-!
What a cast gives for each scalar of a document. Whole numbers go through the nearest double when
they are cast to numbers, so those with more than 53 significant bits change. A text that is no
numeral gives nothing, one that is no date is left as it is; only a date outside the calendar is
refused.
-/
namespace StepGraph

namespace Value.Cast

open Text Time Decimal

variable {i : Int} {raw : Value} {s : String}

theorem number_toString (i : Int) : number (toString i) =
    if rounded i.natAbs < twoTo 1024 then
      .int (if i < 0 then -(rounded i.natAbs : Int) else rounded i.natAbs)
    else .float (infinity (decide (i < 0))) := by
  unfold number
  rw [readFloat?_toString]
  dsimp only
  by_cases h : rounded i.natAbs < twoTo 1024
  · have hplain : (toString i).toList.any (fun c => c == '.' || c == 'e' || c == 'E') = false := by
      refine List.any_eq_false.2 fun c hc hmark => ?_
      have hmarks : c = '.' ∨ c = 'e' ∨ c = 'E' := by simpa [or_assoc] using hmark
      rcases mem_toString hc with hdigit | rfl
      · rcases hmarks with rfl | rfl | rfl <;> cases hdigit
      · revert hmarks
        decide
    obtain ⟨d,hd,hwhole,htruncate⟩ := ofFloat_nearest_whole (decide (i < 0)) h
    rw [hd,if_pos h]
    simp only [hwhole,hplain,htruncate,Bool.not_false,Bool.and_true,if_true,decide_eq_true_eq]
  · have hlarge := Nat.not_lt.1 h
    have hsame : nearest (decide (i < 0)) i.natAbs 1 = infinity (decide (i < 0)) :=
      nearest_large hlarge (le_rounded (twoTo_mono (by decide)))
    rw [ofFloat_nearest,if_pos ((infinityBits_le_nearestBits _).2 hlarge),if_neg h]
    exact congrArg Value.float hsame

theorem ofText_number (s : String) : ofText .number s = .ok (number s) := by
  have htext : ofText .number s = .ok (if s.isEmpty then .null else number s) := rfl
  rw [htext]
  split
  · rename_i h
    obtain rfl := String.isEmpty_iff.1 h
    have hnone : readFloat? "" = none := by decide +kernel
    unfold number
    simp only [hnone]
  · rfl

/-- A whole number is cast to itself as an integer. As a number it becomes the nearest double, which
is the number itself exactly if it has at most 53 significant bits. -/
theorem cast_whole (hi : i.natAbs < Json.writtenLimit) (hraw : raw = int i ∨ raw = text (toString i)) :
    raw.cast .integer = .ok (int i) ∧
    raw.cast .number = .ok (
      if rounded i.natAbs < twoTo 1024 then
        int (if i < 0 then -(rounded i.natAbs : Int) else rounded i.natAbs)
      else .float (infinity (decide (i < 0)))) ∧
    (raw.cast .number = .ok (int i) ↔ i.natAbs < twoTo 1024 ∧ Brief i.natAbs) ∧
    ∀ m, Brief m → ((i.natAbs : Int) - rounded i.natAbs).natAbs ≤ ((i.natAbs : Int) - m).natAbs := by
  have hcast (type : DataType) : raw.cast type = ofText type (toString i) := by
    rcases hraw with rfl | rfl
    · exact cast_int type hi
    · exact cast_text type (trim_toString i)
  rw [hcast .integer,hcast .number,ofText_number,number_toString,← rounded_eq_self_iff]
  refine ⟨leadingWhole_toString hi,rfl,?_,fun m hm => rounded_nearest hm⟩
  generalize rounded i.natAbs = r, twoTo 1024 = limit
  by_cases hr : r < limit
  · rw [if_pos hr,Except.ok.injEq]
    simp only [Value.scalar.injEq,Scalar.int.injEq]
    split <;> omega
  · rw [if_neg hr]
    refine iff_of_false (fun h => ?_) (by omega)
    cases Except.ok.inj h

/-- The first whole number that is no double. -/
theorem cast_whole_beyond : (text "9007199254740993").cast .integer = .ok (int 9007199254740993) ∧
    (text "9007199254740993").cast .number = .ok (int 9007199254740992) := by
  have hi : (9007199254740993 : Int).natAbs < Json.writtenLimit :=
    Nat.lt_of_lt_of_le (show 9007199254740993 < tenTo 16 by decide) (tenTo_mono (by decide))
  have hraw : text "9007199254740993" = text (toString (9007199254740993 : Int)) := by
    have hshown : toString (9007199254740993 : Int) = "9007199254740993" := by decide +kernel
    rw [hshown]
  obtain ⟨hinteger,hnumber,-⟩ := cast_whole hi (.inr hraw)
  have hrounded : rounded (9007199254740993 : Int).natAbs = 9007199254740992 := by decide +kernel
  rw [hrounded,
    if_pos (Nat.lt_of_lt_of_le (by decide) (twoTo_mono (show 54 ≤ 1024 by decide)))] at hnumber
  exact ⟨hinteger,hnumber⟩

theorem number_eq_null : number s = .null ↔ ¬IsNumeral s := by
  unfold number
  rcases readFloat?_isNumeral s with ⟨hs,x,hread,hx⟩ | ⟨hs,hread⟩
  · refine iff_of_false ?_ (not_not_intro hs)
    rw [hread]
    dsimp only
    split
    · exact fun _ => hx ‹_›
    · exact nofun
    · split <;> exact nofun
  · refine iff_of_true ?_ hs
    split
    · rfl
    · rename_i x hx
      rw [hread x hx]

/-- A text that begins with a whole number, behind a sign or without. -/
def IsLed (s : String) : Prop :=
  ∃ sign ∈ signs, ∃ c rest, s.toList = sign ++ c :: rest ∧ isDigit c = true

def leadingDigits (s : String) : List Char := (takeSign (dropBlanks s.toList)).2.takeWhile isDigit

theorem leadingDigits_eq (hs : Text.trim s = s) :
    leadingDigits s = (takeSign s.toList).2.takeWhile isDigit := by
  have hdrop := dropBlanks_trim s
  rw [hs] at hdrop
  rw [leadingDigits,hdrop]

theorem leadingDigits_eq_nil (hs : Text.trim s = s) : leadingDigits s = [] ↔ ¬IsLed s := by
  rw [leadingDigits_eq hs]
  constructor
  · rintro hnil ⟨sign,hsign,c,rest,hchars,hc⟩
    rw [hchars,takeSign_digit hsign hc,List.takeWhile_cons_of_pos hc] at hnil
    cases hnil
  · intro hled
    obtain ⟨sign,hsign,hchars⟩ := takeSign_eq s.toList
    cases hbehind : (takeSign s.toList).2 with
    | nil => rfl
    | cons c rest =>
      rw [hbehind] at hchars
      exact List.takeWhile_cons_of_neg fun hc => hled ⟨sign,hsign,c,rest,hchars,hc⟩

/-- A number whose digits are few enough is read; without any there is none. -/
theorem leadingWhole_of_length (hs : Text.trim s = s) (h : (leadingDigits s).length ≤ maxDigits) :
    ∃ y, leadingWhole s = .ok y ∧ (y = .null ↔ ¬IsLed s) := by
  rw [← leadingDigits_eq_nil hs]
  unfold leadingWhole
  extract_lets signed digits n
  have hdigits : leadingDigits s = digits := rfl
  rw [hdigits] at h ⊢
  split
  · rename_i hempty
    exact ⟨_,rfl,iff_of_true rfl (List.isEmpty_iff.1 hempty)⟩
  · rename_i hempty
    rw [if_neg (Nat.not_lt.2 h)]
    exact ⟨_,rfl,iff_of_false nofun fun hnil => hempty (List.isEmpty_iff.2 hnil)⟩

/-- A scalar of a document whose digits or characters are few enough to be read as a number. -/
def Short : Value → Prop
  | .scalar s =>
    match s with
    | .null => True
    | .bool _ => True
    | .float _ => True
    | .int i => i.natAbs < Json.writtenLimit
    | .text t => t.length ≤ maxDigits
    | _ => False
  | _ => False

theorem rawText_short (h : Short raw) (hnull : raw.isNull = false) :
    ∃ s, rawText raw = .ok s ∧ (leadingDigits s).length ≤ maxDigits := by
  have hint {i : Int} (hi : i.natAbs < Json.writtenLimit) :
      (leadingDigits (toString i)).length ≤ maxDigits := by
    rw [leadingDigits_eq (trim_toString i),takeSign_toString,takeWhile_digits]
    exact length_digits_le_maxDigits.2 hi
  have hstops {s : String} (hs : Text.trim s = s) (h : Stops maxDigits s.toList) :
      (leadingDigits s).length ≤ maxDigits := by
    rw [leadingDigits_eq hs]
    exact h.length_le
  have hshown (x : Float) : (leadingDigits (showFloat x)).length ≤ maxDigits := by
    obtain ⟨front,rest,hchars,hlength,hrest⟩ := stops_showFloat x
    exact hstops (trim_eq_self (isBlank_showFloat x))
      ⟨front,rest,hchars,hlength.trans (by decide),hrest⟩
  match raw with
  | .scalar (.bool b) =>
    refine ⟨_,rfl,?_⟩
    cases b <;> decide
  | .scalar (.int i) => exact ⟨_,rawText_int h,hint h⟩
  | .scalar (.text t) =>
    have hle : (Text.trim t).toList.length ≤ maxDigits :=
      (length_trim_le t).trans (String.length_toList.le.trans h)
    exact ⟨_,rfl,hstops (trim_trim t) ⟨_,[],(List.append_nil _).symm,hle,nofun⟩⟩
  | .scalar (.float x) =>
    unfold rawText
    dsimp only
    split
    · rename_i d hd
      refine ⟨_,rfl,?_⟩
      split
      · refine hint (Nat.lt_of_lt_of_le (truncate_lt hd) (twoTo_le_tenTo.trans ?_))
        exact tenTo_mono (by decide)
      · exact hshown x
    · exact ⟨_,rfl,hshown x⟩

variable {render : Moment → String} {t : Moment} {type : DataType}

/-- A mail date whose numbers are too large to be asked whether they make a date. -/
def Immense (s : String) : Prop :=
  Iso.read? (Form.zeroOffset s) = none ∧ ∃ r ∈ Mail.reading? s, r.Immense

/-- A moment that is before the first day or after the last one on the clock of UTC. -/
def OutsideCalendar (t : Moment) : Prop :=
  ∃ o, t.offset = some o ∧ (t.ticks - o < 0 ∨ lastDay * Time.day ≤ t.ticks - o)

def Overflows (s : String) : Prop :=
  Immense s ∨ ∃ t, Form.readMoment s = .ok (some t) ∧ OutsideCalendar t

theorem readMoment_cases (s : String) :
    Immense s ∧ Form.readMoment s = .error (.misuse .tooLarge) ∨
      ¬Immense s ∧ ∃ found, Form.readMoment s = .ok found := by
  unfold Form.readMoment Immense
  cases Iso.read? (Form.zeroOffset s) with
  | some t => exact .inr ⟨by simp,_,rfl⟩
  | none =>
    rw [Mail.read_eq]
    cases hr : Mail.reading? s with
    | none => exact .inr ⟨by simp,_,rfl⟩
    | some r =>
      rcases r.moment_cases with ⟨himmense,hmoment⟩ | ⟨hfits,found,hmoment,-⟩
      · refine .inl ⟨⟨rfl,r,rfl,himmense⟩,?_⟩
        dsimp only
        rw [hmoment]
      · refine .inr ⟨?_,?_⟩
        · rintro ⟨-,_,⟨⟩,himmense⟩
          exact hfits himmense
        · dsimp only
          rw [hmoment]
          cases found <;> exact ⟨_,rfl⟩

theorem asUtc_cases (t : Moment) :
    OutsideCalendar t ∧ asUtc t = .error (.misuse .tooLarge) ∨
      ¬OutsideCalendar t ∧ ∃ u, asUtc t = .ok u := by
  unfold asUtc OutsideCalendar Moment.inUtc?
  cases t.offset with
  | none => exact .inr ⟨by simp,t,rfl⟩
  | some o =>
    have hnone : Moment.ofTicks? (t.ticks - o) (some 0) = none ↔ _ := Moment.ofTicks?_eq_none_iff
    rw [Option.isNone_some,if_neg Bool.false_ne_true]
    dsimp only
    cases hu : Moment.ofTicks? (t.ticks - o) (some 0) with
    | none => exact .inl ⟨⟨o,rfl,hnone.1 hu⟩,rfl⟩
    | some u =>
      refine .inr ⟨?_,u,rfl⟩
      rintro ⟨_,⟨⟩,houtside⟩
      rw [hnone.2 houtside] at hu
      cases hu

/-- What becomes of a text that is cast to a date: nothing, itself, the printed date, or a refusal. -/
inductive Outcome (render : Moment → String) (s : String) : Except Fault Value → Prop
  | empty (eq_empty : s = "") : Outcome render s (.ok .null)
  | kept (ne_empty : s ≠ "") (unread : Form.readMoment s = .ok none) :
    Outcome render s (.ok (.text s))
  | printed {t u : Moment} (read : Form.readMoment s = .ok (some t)) (inUtc : asUtc t = .ok u) :
    Outcome render s (.ok (.text (render u)))
  | refused (overflows : Overflows s) : Outcome render s (.error (.misuse .tooLarge))

theorem dated_of_overflows (h : Overflows s) : dated render s = .error (.misuse .tooLarge) := by
  have hfound : Form.readMoment s ≠ .ok none := by
    intro hnone
    rcases h with himmense | ⟨t,hread,-⟩
    · rcases readMoment_cases s with ⟨-,herror⟩ | ⟨hfits,-⟩
      · cases hnone.symm.trans herror
      · exact hfits himmense
    · cases hnone.symm.trans hread
  have hempty : s.isEmpty = false := by
    rw [← Bool.not_eq_true,String.isEmpty_iff]
    rintro rfl
    exact hfound readMoment_empty
  rw [dated_eq render hempty]
  rcases readMoment_cases s with ⟨-,herror⟩ | ⟨hfits,-⟩
  · rw [herror]
  · obtain ⟨t,hread,houtside⟩ := h.resolve_left hfits
    rw [hread]
    dsimp only
    rcases asUtc_cases t with ⟨-,hutc⟩ | ⟨hinside,-⟩
    · rw [hutc]
      rfl
    · exact absurd houtside hinside

theorem outcome_dated (render : Moment → String) (s : String) :
    Outcome render s (dated render s) := by
  cases hempty : s.isEmpty with
  | true =>
    rw [dated,hempty]
    exact .empty (String.isEmpty_iff.1 hempty)
  | false =>
    have hne : s ≠ "" := by
      rintro rfl
      cases hempty
    rcases readMoment_cases s with ⟨himmense,-⟩ | ⟨-,found,hread⟩
    · rw [dated_of_overflows (.inl himmense)]
      exact .refused (.inl himmense)
    · cases found with
      | none =>
        rw [dated_eq render hempty,hread]
        exact .kept hne hread
      | some t =>
        rcases asUtc_cases t with ⟨houtside,-⟩ | ⟨-,u,hutc⟩
        · rw [dated_of_overflows (.inr ⟨t,hread,houtside⟩)]
          exact .refused (.inr ⟨t,hread,houtside⟩)
        · rw [dated_of_readMoment hread hutc]
          exact .printed hread hutc

/-- The types that are dates, with the form in which they are printed. -/
def DataType.form? : DataType → Option (Moment → String)
  | .dateOnly => some dateText
  | .dateTime => some dateTimeText
  | _ => none

/-- A short scalar is cast to a value, whatever the type, unless it is cast to a date and names one
outside the calendar; that is refused. What no form reads is kept; what does not begin with a whole
number is no integer, and what is no numeral is no number. -/
theorem cast_short (h : Short raw) : (raw = .null ∧ ∀ type, raw.cast type = .ok .null) ∨
    ∃ s, rawText raw = .ok s ∧
      (∀ type, type.form? = none → ∃ y, raw.cast type = .ok y) ∧
      (∀ type render, type.form? = some render → Outcome render s (raw.cast type) ∧
        (Overflows s → raw.cast type = .error (.misuse .tooLarge))) ∧
      (raw.cast .integer = .ok .null ↔ ¬IsLed s) ∧
      (raw.cast .number = .ok .null ↔ ¬IsNumeral s) := by
  cases hnull : raw.isNull with
  | true =>
    refine .inl ⟨eq_null hnull,fun type => ?_⟩
    rw [cast,hnull]
    rfl
  | false =>
    obtain ⟨s,hraw,hlength⟩ := rawText_short h hnull
    have hcast (type : DataType) : raw.cast type = ofText type s := by
      rw [cast_eq type hnull,hraw]
      rfl
    obtain ⟨y,hwhole,hy⟩ := leadingWhole_of_length (trim_rawText hraw) hlength
    refine .inr ⟨s,hraw,fun type hform => ?_,fun type render hform => ?_,?_,?_⟩
    · rw [hcast type]
      cases type with
      | dateOnly => cases hform
      | dateTime => cases hform
      | integer => exact ⟨y,hwhole⟩
      | _ => exact ⟨_,rfl⟩
    · have hdated : raw.cast type = dated render s := by
        rw [hcast type]
        cases type <;> cases hform <;> rfl
      rw [hdated]
      exact ⟨outcome_dated render s,dated_of_overflows⟩
    · rw [hcast .integer,← hy]
      exact ⟨fun he => Except.ok.inj (hwhole.symm.trans he),fun he => he ▸ hwhole⟩
    · rw [hcast .number,ofText_number,← number_eq_null]
      exact ⟨Except.ok.inj,congrArg _⟩

/-- The first morning of the calendar begins a day earlier in UTC, and there is no such day. -/
theorem cast_short_morning :
    let morning := text "0001-01-01T00:00:00+05:00"
    morning.cast .dateOnly = .error (.misuse .tooLarge) ∧
      morning.cast .dateTime = .error (.misuse .tooLarge) ∧ ∃ y, morning.cast .integer = .ok y := by
  let first : Moment := { year := 1, month := 1, day := 1, offset := some 18000000000 }
  intro morning
  have hiso : Iso.read? (Form.zeroOffset "0001-01-01T00:00:00+05:00") = some first := by
    decide +kernel
  have hread : Form.readMoment "0001-01-01T00:00:00+05:00" = .ok (some first) := by
    rw [Form.readMoment,hiso]
  have hoverflows : Overflows "0001-01-01T00:00:00+05:00" :=
    .inr ⟨first,hread,18000000000,rfl,.inl (by decide)⟩
  have hshort : Short morning := show "0001-01-01T00:00:00+05:00".length ≤ maxDigits by decide
  obtain ⟨hnull,-⟩ | ⟨s,hraw,hvalues,hdates,-⟩ := cast_short hshort
  · have hnone : text "0001-01-01T00:00:00+05:00" = null := hnull
    cases hnone
  · have htrim : Text.trim "0001-01-01T00:00:00+05:00" = "0001-01-01T00:00:00+05:00" := by
      decide +kernel
    have hs : Text.trim "0001-01-01T00:00:00+05:00" = s := Except.ok.inj hraw
    rw [← hs,htrim] at hdates
    exact ⟨(hdates .dateOnly dateText rfl).2 hoverflows,
      (hdates .dateTime dateTimeText rfl).2 hoverflows,hvalues .integer rfl⟩

end Value.Cast

end StepGraph
