import StepGraph.Proofs.Dates
import StepGraph.Proofs.Numerals
import StepGraph.Time.Form

/-!
Dates in their printed form, and the forms that are read. The numbers of a date are printed with a
fixed width and read back as they are, so the printed form of a moment from the year 1000 on is read
as the same moment, cut to milliseconds; the year of an earlier one has too few figures. Whatever
form a text has, the moment that it names is one of the calendar. The forms that people write need a
blank or a slash: a text with neither is an ISO date or no date at all.
-/
namespace StepGraph

namespace Text

theorem toList_loop (bs : ByteArray) (i : Nat) (done : List UInt8) :
    ByteArray.toList.loop bs i done = done.reverse ++ bs.data.toList.drop i := by
  fun_induction ByteArray.toList.loop bs i done with
  | case1 i done h ih =>
    have hi : i < bs.data.toList.length := by simpa using h
    have hget : bs.get! i = bs.data.toList[i] := by simp [ByteArray.get!,h]
    rw [ih,List.drop_eq_getElem_cons hi,hget]
    simp
  | case2 i done h =>
    rw [List.drop_eq_nil_of_le (by simpa using Nat.le_of_not_lt h),List.append_nil]

theorem toList_bytes (bs : ByteArray) : bs.toList = bs.data.toList := by
  simp [ByteArray.toList,toList_loop]

end Text

namespace Time

open Text

namespace Iso

theorem byteChars_ascii {s : String} (h : ∀ c ∈ s.toList, c.toNat < 128) :
    byteChars s = s.toList := by
  have hencode {cs : List Char} (h : ∀ c ∈ cs, c.toNat < 128) :
      cs.flatMap String.utf8EncodeChar = cs.map fun c => c.val.toUInt8 := by
    induction cs with
    | nil => rfl
    | cons c cs ih =>
      have hc : c.utf8Size = 1 :=
        Char.utf8Size_eq_one_iff.2 (Nat.le_of_lt_succ (h c List.mem_cons_self))
      rw [List.flatMap_cons,String.utf8EncodeChar_eq_singleton hc,
        ih fun d hd => h d (List.mem_cons_of_mem c hd)]
      rfl
  have hchar {c : Char} (hc : c.toNat < 128) : Char.ofNat c.val.toUInt8.toNat = c := by
    have hbyte : c.val.toUInt8.toNat = c.toNat := Nat.mod_eq_of_lt (Nat.lt_trans hc (by decide))
    rw [hbyte,Char.ofNat_toNat]
  unfold byteChars
  rw [String.toUTF8_eq_toByteArray,← String.utf8Encode_toList,toList_bytes,List.utf8Encode,
    List.toList_data_toByteArray,hencode h,List.map_map]
  refine (List.map_congr_left fun c hc => ?_).trans (List.map_id _)
  exact hchar (h c hc)

structure SpellsNumber (width n : Nat) (cs : List Char) : Prop where
  length : cs.length = width
  isDigit : ∀ c ∈ cs, c.isDigit = true
  value : figures cs = n

theorem spellsNumber_padded {width n : Nat} (hw : 0 < width) (h : n < tenTo width) :
    SpellsNumber width n (padded width n).toList := by
  have hlength := (Decimal.length_digits_le hw).2 h
  have hchars : (padded width n).toList =
      List.replicate (width - (Nat.toDigits 10 n).length) '0' ++ Nat.toDigits 10 n :=
    String.toList_ofList
  rw [hchars]
  refine ⟨?_,fun c hc => ?_,?_⟩
  · rw [List.length_append,List.length_replicate,Nat.sub_add_cancel hlength]
  · rcases List.mem_append.1 hc with hc | hc
    · rw [List.eq_of_mem_replicate hc]
      decide
    · exact isDigit_of_mem_digits hc
  · change Nat.ofDigitChars 10 _ 0 = n
    rw [Nat.ofDigitChars_append,Nat.ofDigitChars_replicate_zero,Nat.mul_zero]
    exact Nat.ofDigitChars_ten_toDigits

variable {k n : Nat} {cs : List Char}

theorem SpellsNumber.take (h : SpellsNumber k n cs) (rest : List Char) :
    takeFigures k (cs ++ rest) = some (n,rest) := by
  have hall : cs.all isFigure = true := List.all_eq_true.2 h.isDigit
  have htake : (cs ++ rest).take k = cs := List.take_left' h.length
  have hdrop : (cs ++ rest).drop k = rest := List.drop_left' h.length
  unfold takeFigures
  simp only [htake,hdrop,h.length,hall,h.value,BEq.rfl,Bool.and_self,if_true]

theorem SpellsNumber.ne (h : SpellsNumber k n cs) {c d : Char} (hc : c ∈ cs)
    (hd : d.isDigit = false) :
    c ≠ d := by
  rintro rfl
  rw [h.isDigit c hc] at hd
  cases hd

variable {y m d : Nat} {ys ms ds rest : List Char}

theorem dateSize?_dashed (hy : ys.length = 4) (hm : SpellsNumber 2 m ms) (hd : ds.length = 2) :
    dateSize? (ys ++ '-' :: (ms ++ '-' :: (ds ++ rest))) = some 10 := by
  obtain ⟨e,f,rfl⟩ := List.length_eq_two.1 hm.length
  have hw : e ≠ 'W' := hm.ne List.mem_cons_self (by decide)
  have hfifth : (ys ++ '-' :: ([e,f] ++ '-' :: (ds ++ rest)))[4]? = some '-' := by
    rw [← hy,List.getElem?_append_right (Nat.le_refl _)]
    simp
  have hsixth : (ys ++ '-' :: ([e,f] ++ '-' :: (ds ++ rest)))[5]? = some e := by
    rw [List.getElem?_append_right (by omega),hy]
    simp
  have hlength : (ys ++ '-' :: ([e,f] ++ '-' :: (ds ++ rest))).length = 10 + rest.length := by
    simp [hy,hd]
    omega
  unfold dateSize?
  dsimp only
  rw [hlength,hfifth,hsixth,if_neg (by omega),if_neg (by simp; omega)]
  simp [hw]

theorem readDate?_dashed (hy : SpellsNumber 4 y ys) (hm : SpellsNumber 2 m ms)
    (hd : SpellsNumber 2 d ds) :
    readDate? 10 (ys ++ '-' :: (ms ++ '-' :: (ds ++ rest))) = some (y,m,d) := by
  obtain ⟨e,f,rfl⟩ := List.length_eq_two.1 hm.length
  have hw : e ≠ 'W' := hm.ne List.mem_cons_self (by decide)
  have hsize : (ys ++ '-' :: ([e,f] ++ '-' :: (ds ++ rest))).length - rest.length = 10 := by
    simp [hy.length,hd.length]
    omega
  unfold readDate?
  rw [hy.take]
  simp only [Option.bind_eq_bind,Option.bind_some,List.head?_cons,List.drop_one,List.tail_cons,
    BEq.rfl,if_true]
  split
  · rename_i hweek
    exact absurd (List.cons.inj hweek).1 hw
  · simp only [hm.take,expect,BEq.rfl,if_true,Option.bind_some,hd.take,hsize]

theorem SpellsNumber.not_isOffsetMark (h : SpellsNumber k n cs) :
    ∀ c ∈ cs, isOffsetMark c = false := by
  intro c hc
  have hplus : c ≠ '+' := h.ne hc (by decide)
  have hminus : c ≠ '-' := h.ne hc (by decide)
  have hzulu : c ≠ 'Z' := h.ne hc (by decide)
  simp [isOffsetMark,hplus,hminus,hzulu]

variable {behind more : List Char}

theorem readClockFrom_colon (h : SpellsNumber 2 n cs) (hmore : more ≠ []) {colons : Bool} {left : Nat}
    (hcolons : left = 2 ∨ colons = true) (c : Clock) :
    readClockFrom behind colons c (left + 1) (cs ++ ':' :: more) =
      readClockFrom behind true (c.set (2 - left) n) left more := by
  have hgoes : (if (2 - left == 0) = true then true else colons) = true := by
    rcases hcolons with rfl | rfl
    · rfl
    · split <;> rfl
  rw [readClockFrom,h.take]
  simp only [Option.bind_eq_bind,Option.bind_some,List.isEmpty_eq_false_iff.2 hmore,hgoes,BEq.rfl,
    Bool.and_self,Bool.false_eq_true,if_false,if_true]

theorem readClockFrom_point (h : SpellsNumber 2 n cs) (hmore : more ≠ []) (colons : Bool) (left : Nat)
    (c : Clock) : readClockFrom behind colons c (left + 1) (cs ++ '.' :: more) =
      readFraction (c.set (2 - left) n) more behind := by
  have hcolon : ('.' == ':') = false := by decide
  rw [readClockFrom,h.take]
  simp only [Option.bind_eq_bind,Option.bind_some,List.isEmpty_eq_false_iff.2 hmore,hcolon,
    Bool.and_false,BEq.rfl,Bool.true_or,Bool.false_eq_true,if_false,if_true]

theorem readFraction_millis (h : SpellsNumber 3 n cs) (c : Clock) : readFraction c cs behind =
    some ({ c with micro := n * 1000 },!(behind.dropWhile isFigure).isEmpty) := by
  have hsize : min cs.length 6 = 3 := by rw [h.length]; rfl
  have htake : takeFigures 3 cs = some (n,[]) := by simpa using h.take []
  unfold readFraction
  simp only [hsize,htake,Option.bind_eq_bind,Option.bind_some,List.nil_append]
  rfl

variable {h i f : Nat} {hs is ns fs : List Char}

theorem readClock_millis (hh : SpellsNumber 2 h hs) (hi : SpellsNumber 2 i is)
    (hn : SpellsNumber 2 n ns)
    (hf : SpellsNumber 3 f fs) (behind : List Char) :
    readClock (hs ++ ':' :: (is ++ ':' :: (ns ++ '.' :: fs))) behind =
      some (⟨h,i,n,f * 1000⟩,!(behind.dropWhile isFigure).isEmpty) := by
  have hfs : fs ≠ [] := by
    rintro rfl
    cases hf.length
  unfold readClock
  rw [readClockFrom_colon hh (by simp) (.inl rfl),readClockFrom_colon hi (by simp) (.inr rfl),
    readClockFrom_point hn hfs,readFraction_millis hf]
  rfl

theorem readTime?_zulu (hh : SpellsNumber 2 h hs) (hi : SpellsNumber 2 i is)
    (hn : SpellsNumber 2 n ns)
    (hf : SpellsNumber 3 f fs) :
    readTime? (hs ++ ':' :: (is ++ ':' :: (ns ++ '.' :: fs)) ++ "+00:00".toList) =
      some (⟨h,i,n,f * 1000⟩,some 0) := by
  have hclock : ∀ c ∈ hs ++ ':' :: (is ++ ':' :: (ns ++ '.' :: fs)), (!isOffsetMark c) = true := by
    have hcolon : isOffsetMark ':' = false := by decide
    have hpoint : isOffsetMark '.' = false := by decide
    intro c hc
    simp only [List.mem_append,List.mem_cons] at hc
    rw [Bool.not_eq_true']
    rcases hc with hc | rfl | hc | rfl | hc | rfl | hc
    · exact hh.not_isOffsetMark c hc
    · exact hcolon
    · exact hi.not_isOffsetMark c hc
    · exact hcolon
    · exact hn.not_isOffsetMark c hc
    · exact hpoint
    · exact hf.not_isOffsetMark c hc
  have hread := readClock_millis hh hi hn hf "+00:00".toList
  generalize hs ++ ':' :: (is ++ ':' :: (ns ++ '.' :: fs)) = front at hclock hread ⊢
  have hinside : (front ++ "+00:00".toList).takeWhile (fun c => !isOffsetMark c) = front :=
    (List.takeWhile_append_of_pos hclock).trans (List.append_nil front)
  unfold readTime?
  have hzone : readClock "00:00".toList [] = some ({},false) := rfl
  have hsign : "+00:00".toList = '+' :: "00:00".toList := rfl
  have hleft : (!("+00:00".toList.dropWhile isFigure).isEmpty) = true := by decide
  have hoffset : offsetOf '+' {} = 0 := by decide
  simp only [hinside,List.drop_left,hread,hleft,Option.bind_eq_bind,Option.bind_some]
  rw [hsign]
  change ((readClock "00:00".toList []).bind fun a =>
    if a.2 = true then none else some (_,some (offsetOf '+' a.1))) = _
  rw [hzone,Option.bind_some,if_neg (by decide),hoffset]

variable {s : String}

theorem drop_dashed (hy : SpellsNumber 4 y ys) (hm : SpellsNumber 2 m ms) (hd : SpellsNumber 2 d ds) :
    (ys ++ '-' :: (ms ++ '-' :: (ds ++ rest))).drop 10 = rest := by
  have hsplit : ys ++ '-' :: (ms ++ '-' :: (ds ++ rest)) =
      (ys ++ '-' :: (ms ++ '-' :: ds)) ++ rest := by
    simp
  rw [hsplit]
  exact List.drop_left' (by simp [hy.length,hm.length,hd.length])

theorem read?_day (hy : SpellsNumber 4 y ys) (hm : SpellsNumber 2 m ms) (hd : SpellsNumber 2 d ds)
    (hs : byteChars s = ys ++ '-' :: (ms ++ '-' :: ds)) : read? s = moment? (y,m,d) {} none := by
  rw [← List.append_nil ds] at hs
  unfold read?
  simp only [hs,dateSize?_dashed hy.length hm hd.length,readDate?_dashed hy hm hd,
    drop_dashed hy hm hd,Option.bind_eq_bind,Option.bind_some,List.isEmpty_nil,if_true]

theorem read?_instant (hy : SpellsNumber 4 y ys) (hm : SpellsNumber 2 m ms) (hd : SpellsNumber 2 d ds)
    (hh : SpellsNumber 2 h hs) (hi : SpellsNumber 2 i is) (hn : SpellsNumber 2 n ns)
    (hf : SpellsNumber 3 f fs)
    (hchars : byteChars s = ys ++ '-' :: (ms ++ '-' :: (ds ++ 'T' ::
      (hs ++ ':' :: (is ++ ':' :: (ns ++ '.' :: fs)) ++ "+00:00".toList)))) :
    read? s = moment? (y,m,d) ⟨h,i,n,f * 1000⟩ (some 0) := by
  have hsize {cs : List Char} : separatorSize ('T' :: cs) = 1 := rfl
  unfold read?
  simp only [hchars,dateSize?_dashed hy.length hm hd.length,readDate?_dashed hy hm hd,
    drop_dashed hy hm hd,Option.bind_eq_bind,Option.bind_some,List.isEmpty_cons,hsize,
    List.drop_one,List.tail_cons,readTime?_zulu hh hi hn hf,Bool.false_eq_true,if_false]

/-- A text whose first four characters are not all figures is no date. -/
theorem read?_of_takeFigures (hs : takeFigures 4 (byteChars s) = none) : read? s = none := by
  have hdate (size : Nat) : readDate? size (byteChars s) = none := by
    unfold readDate?
    rw [hs]
    rfl
  unfold read?
  simp only [hdate,Option.bind_eq_bind,Option.bind_none,Option.bind_fun_none]

variable {c : Clock} {inside behind : List Char} {r : Clock × Bool} {t : Moment}

theorem takeFigures_lt {k n : Nat} {cs rest : List Char} (h : takeFigures k cs = some (n,rest)) :
    n < tenTo k := by
  unfold takeFigures at h
  dsimp only at h
  split at h
  · rename_i hfigures
    simp only [Bool.and_eq_true,beq_iff_eq] at hfigures
    cases h
    have hall : ∀ c ∈ cs.take k, c.isDigit = true := List.all_eq_true.1 hfigures.2
    have hlt := digitsToNat_lt (cs.take k)
    rw [digitsToNat_eq hall,hfigures.1] at hlt
    exact hlt
  · cases h

theorem tenTo_add (m n : Nat) : tenTo (m + n) = tenTo m * tenTo n := Nat.pow_add 10 m n

theorem micro_of_readFraction (h : readFraction c inside behind = some r) :
    r.1.micro < 1000000 := by
  unfold readFraction at h
  simp only [Option.bind_eq_bind] at h
  obtain ⟨⟨n,rest⟩,htake,h⟩ := Option.bind_eq_some_iff.1 h
  have hn := takeFigures_lt htake
  cases h
  have hsize : min inside.length 6 ≤ 6 := Nat.min_le_right _ _
  calc
    n * tenTo (6 - min inside.length 6)
    _ < tenTo (min inside.length 6) * tenTo (6 - min inside.length 6) :=
      Nat.mul_lt_mul_of_pos_right hn (Nat.pow_pos (by decide))
    _ = 1000000 := by
      rw [← tenTo_add,Nat.add_sub_cancel' hsize]
      rfl

theorem micro_of_readClockFrom {colons : Bool} {left : Nat} (hc : c.micro < 1000000)
    (h : readClockFrom behind colons c left inside = some r) : r.1.micro < 1000000 := by
  induction left generalizing colons c inside with
  | zero => exact micro_of_readFraction h
  | succ left ih =>
    rw [readClockFrom] at h
    simp only [Option.bind_eq_bind] at h
    obtain ⟨⟨n,rest⟩,-,h⟩ := Option.bind_eq_some_iff.1 h
    have hset : (c.set (2 - left) n).micro < 1000000 := by
      unfold Clock.set
      split <;> exact hc
    dsimp only at h
    split at h
    · cases h
      exact hset
    · rename_i mark more
      generalize (if (2 - left == 0) = true then mark == ':' else colons) = colons at h
      split at h
      · cases h
        exact hset
      · split at h
        · exact ih hset h
        · split at h
          · exact micro_of_readFraction h
          · split at h
            · exact ih hset h
            · cases h

theorem micro_of_readTime? {cs : List Char} {o : Option Int} (h : readTime? cs = some (c,o)) :
    c.micro < 1000000 := by
  unfold readTime? at h
  simp only [Option.bind_eq_bind] at h
  obtain ⟨⟨clock,left⟩,hclock,h⟩ := Option.bind_eq_some_iff.1 h
  have hmicro : clock.micro < 1000000 := micro_of_readClockFrom (by decide) hclock
  have hsame : clock = c := by
    dsimp only at h
    split at h
    · split at h <;> cases h
      rfl
    · cases h
      rfl
    · cases h
    · obtain ⟨⟨shift,left⟩,-,h⟩ := Option.bind_eq_some_iff.1 h
      dsimp only at h
      split at h <;> cases h
      rfl
  exact hsame ▸ hmicro

theorem moment?_eq {y m d : Nat} {o : Option Int} (hdate : validDate y m d = true)
    (hclock : validClock c = true) (hoffset : validOffset o = true) :
    moment? (y,m,d) c o = some ⟨y,m,d,c.hour,c.minute,c.second,c.micro,o⟩ := by
  simp only [moment?,hdate,hclock,hoffset,Bool.and_self,if_true]

theorem valid_of_moment? {date : Nat × Nat × Nat} {o : Option Int} (hc : c.micro < 1000000)
    (h : moment? date c o = some t) : t.Valid := by
  unfold moment? at h
  dsimp only at h
  split at h
  · rename_i hvalid
    cases h
    simp only [validClock,Bool.and_eq_true,decide_eq_true_eq] at hvalid
    obtain ⟨⟨hdate,⟨hhour,hminute⟩,hsecond⟩,-⟩ := hvalid
    exact ⟨hdate,hhour,hminute,hsecond,hc⟩
  · cases h

theorem valid_of_read? {s : String} (h : read? s = some t) : t.Valid := by
  unfold read? at h
  simp only [Option.bind_eq_bind] at h
  obtain ⟨size,-,h⟩ := Option.bind_eq_some_iff.1 h
  obtain ⟨date,-,h⟩ := Option.bind_eq_some_iff.1 h
  split at h
  · exact valid_of_moment? (by decide) h
  · obtain ⟨⟨clock,o⟩,htime,h⟩ := Option.bind_eq_some_iff.1 h
    exact valid_of_moment? (micro_of_readTime? htime) h

end Iso

namespace Mail

variable {r : Reading} {s : String} {t : Moment}

/-- The numbers that a mail date has, before any of them is checked. -/
def reading? (s : String) : Option Reading :=
  match (splitZone (splitDashed (withoutDay (wordsOf s)))).take 5 with
  | [dd,mm,yy,tm,tz] => readWords? dd mm yy tm tz
  | _ => none

theorem read_eq (s : String) :
    read s = match reading? s with
      | some r => r.moment
      | none => .ok none := by
  unfold read reading?
  generalize (splitZone (splitDashed (withoutDay (wordsOf s)))).take 5 = ws
  rcases ws with _ | ⟨a,_ | ⟨b,_ | ⟨c,_ | ⟨d,_ | ⟨e,_ | ⟨f,rest⟩⟩⟩⟩⟩⟩ <;> rfl

/-- Numbers too large to be asked whether they make a date: a zone that is more days away than a
span of time may have, or any number beyond 32 bits beside a zone that is less than a day away. -/
def Reading.Immense (r : Reading) : Prop :=
  maxSpan < ((r.zone.getD 0).fdiv 86400).natAbs ∨
    (r.zone.any fun n => 86400 ≤ n.natAbs) = false ∧
      ([r.year,r.month,r.day,r.hour,r.minute,r.second].all fits) = false

/-- Only immense numbers are refused; any others make a date of the calendar or none at all. -/
theorem Reading.moment_cases (r : Reading) :
    r.Immense ∧ r.moment = .error (.misuse .tooLarge) ∨
      ¬r.Immense ∧ ∃ found : Option Moment, r.moment = .ok found ∧ ∀ t ∈ found, t.Valid := by
  unfold Reading.moment Reading.Immense
  dsimp only
  split
  · rename_i hspan
    exact .inl ⟨.inl hspan,rfl⟩
  · rename_i hspan
    split
    · rename_i hzone
      refine .inr ⟨?_,none,rfl,by simp⟩
      rintro (h | ⟨h,-⟩)
      · exact hspan h
      · rw [h] at hzone
        cases hzone
    · rename_i hzone
      split
      · rename_i hfits
        rw [Bool.not_eq_true'] at hfits
        exact .inl ⟨.inr ⟨by simpa using hzone,hfits⟩,rfl⟩
      · rename_i hfits
        rw [Bool.not_eq_true'] at hfits
        refine .inr ⟨?_,?_⟩
        · rintro (h | ⟨-,h⟩)
          · exact hspan h
          · exact hfits h
        · split
          · rename_i hdate
            refine ⟨_,rfl,fun t ht => ?_⟩
            cases ht
            simp only [Bool.and_eq_true,decide_eq_true_eq] at hdate
            obtain ⟨⟨⟨⟨⟨⟨⟨-,hvalid⟩,-⟩,hhour⟩,-⟩,hminute⟩,-⟩,hsecond⟩ := hdate
            refine ⟨hvalid,?_,?_,?_,?_⟩ <;> dsimp only <;> omega
          · exact ⟨none,rfl,by simp⟩

theorem valid_of_read (h : read s = .ok (some t)) : t.Valid := by
  rw [read_eq] at h
  split at h
  · rename_i r _
    rcases r.moment_cases with ⟨-,hr⟩ | ⟨-,found,hr,hvalid⟩ <;> rw [hr] at h
    · cases h
    · cases h
      exact hvalid t rfl
  · cases h

theorem read_of_unblanked (h : ∀ c ∈ s.toList, isBlank c = false) : read s = .ok none := by
  have hpieces {cs : List Char} (h : ∀ c ∈ cs, isBlank c = false) : splitAt isBlank cs = [cs] := by
    induction cs with
    | nil => rfl
    | cons c cs ih =>
      rw [splitAt,h c List.mem_cons_self,ih fun d hd => h d (List.mem_cons_of_mem c hd)]
      rfl
  have hwords : (wordsOf s).length ≤ 1 := by
    unfold wordsOf
    rw [hpieces h,List.length_map]
    exact List.length_filter_le _ _
  have hnone : reading? s = none := by
    unfold reading?
    generalize wordsOf s = ws at hwords
    rcases ws with _ | ⟨w,_ | ⟨v,rest⟩⟩
    · rfl
    · rw [withoutDay]
      generalize (endsWith w "," || dayNames.contains (lower w)) = isDay
      cases isDay <;> rfl
    · simp at hwords
  rw [read_eq,hnone]

end Mail

namespace Form

variable {f : Fields} {p : Part} {cs : List Char} {r : Fields × List Char} {t : Moment} {s : String}

theorem valid_of_shape {shape : Shape} (h : shape.read? s = some t) : t.Valid := by
  unfold Shape.read? at h
  split at h
  · exact Iso.valid_of_moment? (show 0 < 1000000 by decide) h
  · cases h

theorem valid_of_readMoment (h : readMoment s = .ok (some t)) : t.Valid := by
  unfold readMoment at h
  split at h
  · rename_i hiso
    cases h
    exact Iso.valid_of_read? hiso
  · split at h
    · cases h
    · rename_i hmail
      cases h
      exact Mail.valid_of_read hmail
    · rw [Except.ok.injEq] at h
      obtain ⟨shape,-,hshape⟩ := List.exists_of_findSome?_eq_some h
      exact valid_of_shape hshape

def Part.Needs (p : Part) (cs : List Char) : Prop :=
  match p with
  | .mark c => c ∈ cs
  | .blanks => ∃ c ∈ cs, isBlank c = true
  | _ => True

theorem Part.Needs.mono {rest : List Char} (h : p.Needs rest) (hsuffix : rest <:+ cs) :
    p.Needs cs := by
  cases p with
  | mark c => exact hsuffix.subset h
  | blanks =>
    obtain ⟨c,hc,hblank⟩ := h
    exact ⟨c,hsuffix.subset hc,hblank⟩
  | _ => trivial

theorem takePlaces_suffix {ps : List Place} {n m : Nat} {rest : List Char}
    (h : takePlaces n ps cs = some (m,rest)) : rest <:+ cs := by
  induction ps generalizing n cs with
  | nil =>
    cases h
    exact List.suffix_rfl
  | cons p ps ih =>
    cases cs with
    | nil => cases h
    | cons c cs =>
      obtain ⟨d,-,h⟩ := Option.bind_eq_some_iff.1 h
      exact (ih h).trans (List.suffix_cons c cs)

theorem takeName_suffix {names : List String} {m : Nat} {rest : List Char}
    (h : (m,rest) ∈ takeName names cs) : rest <:+ cs := by
  obtain ⟨name,-,h⟩ := List.mem_filterMap.1 h
  split at h
  · obtain ⟨k,-,hk⟩ := Option.map_eq_some_iff.1 h
    cases hk
    exact List.drop_suffix _ _
  · cases h

theorem takeBlanks_suffix {rest : List Char} (h : rest ∈ takeBlanks cs) :
    rest <:+ cs ∧ ∃ c ∈ cs, isBlank c = true := by
  obtain ⟨k,hk,rfl⟩ := List.mem_map.1 (List.mem_reverse.1 h)
  refine ⟨List.drop_suffix _ _,?_⟩
  have hpos : 0 < (cs.takeWhile isBlank).length := by
    have := List.mem_range.1 hk
    omega
  obtain ⟨c,hc⟩ := List.exists_mem_of_length_pos hpos
  exact ⟨c,(List.takeWhile_sublist _).mem hc,List.mem_takeWhile_imp hc⟩

theorem takePart_needs (h : r ∈ takePart f p cs) : p.Needs cs ∧ r.2 <:+ cs := by
  cases p with
  | mark c =>
    change r ∈ if cs.head? == some c then [(f,cs.drop 1)] else [] at h
    split at h
    · rename_i hhead
      rw [List.mem_singleton.1 h]
      exact ⟨List.mem_of_mem_head? (by simpa using hhead),List.drop_suffix _ _⟩
    · cases h
  | blanks =>
    obtain ⟨rest,hrest,rfl⟩ := List.mem_map.1 h
    obtain ⟨hsuffix,hblank⟩ := takeBlanks_suffix hrest
    exact ⟨hblank,hsuffix⟩
  | shortName | longName =>
    obtain ⟨⟨m,rest⟩,hname,rfl⟩ := List.mem_map.1 h
    exact ⟨trivial,takeName_suffix hname⟩
  | _ =>
    obtain ⟨ps,-,hps⟩ := List.mem_filterMap.1 h
    obtain ⟨⟨n,rest⟩,hplaces,hr⟩ := Option.map_eq_some_iff.1 hps
    rw [← hr]
    exact ⟨trivial,takePlaces_suffix hplaces⟩

theorem takeShape_needs {shape : Shape} (h : takeShape f shape cs = some r) :
    ∀ p ∈ shape, p.Needs cs := by
  induction shape generalizing f cs with
  | nil => simp
  | cons p ps ih =>
    obtain ⟨⟨g,rest⟩,hpart,hrest⟩ := List.exists_of_findSome?_eq_some h
    obtain ⟨hp,hsuffix⟩ := takePart_needs hpart
    refine List.forall_mem_cons.2 ⟨hp,fun q hq => ?_⟩
    exact (ih hrest q hq).mono hsuffix

/-- A text with neither a slash nor a blank is an ISO date or none. -/
theorem readMoment_of_plain (hiso : Iso.read? (zeroOffset s) = none) (hslash : '/' ∉ s.toList)
    (hblank : ∀ c ∈ s.toList, isBlank c = false) : readMoment s = .ok none := by
  have hshapes : ∀ shape ∈ shapes, ∃ p ∈ shape, p = .mark '/' ∨ p = .blanks := by
    simp [shapes,slashed]
  have hnone : shapes.findSome? (·.read? s) = none := by
    refine List.findSome?_eq_none_iff.2 fun shape hshape => ?_
    obtain ⟨p,hp,hpart⟩ := hshapes shape hshape
    unfold Shape.read?
    split
    · rename_i htake
      have hneeds := takeShape_needs htake p hp
      rcases hpart with rfl | rfl
      · exact absurd hneeds hslash
      · obtain ⟨c,hc,hb⟩ := hneeds
        rw [hblank c hc] at hb
        cases hb
    · rfl
  unfold readMoment
  rw [hiso,Mail.read_of_unblanked hblank,hnone]

end Form

end Time

end StepGraph
