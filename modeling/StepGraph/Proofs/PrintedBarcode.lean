import Mathlib.Data.List.Count
import StepGraph.Imaging.Barcode

/-!
Printing and reading barcodes. A text that was joined with a separator is cut into the same pieces
again when no piece has a character of the separator; what stands last may be anything, and is cut
further. So a barcode that was printed from a pattern is read back as the type and the detail line
that were printed.
-/
namespace StepGraph

namespace Text

variable {sep piece : List Char}

theorem splitFrom_drop (sep : List Char) (skip : Nat) (done cs : List Char) :
    splitFrom sep skip done cs = splitFrom sep 0 done (cs.drop skip) := by
  induction cs generalizing skip with
  | nil => cases skip <;> rfl
  | cons c rest ih =>
    cases skip with
    | zero => rfl
    | succ n => exact ih n

theorem splitFrom_noCommonChar (hsep : sep ≠ []) (h : piece.Disjoint sep) (done rest : List Char) :
    splitFrom sep 0 done (piece ++ rest) = splitFrom sep 0 (piece.reverse ++ done) rest := by
  induction piece generalizing done with
  | nil => rfl
  | cons c piece ih =>
    obtain ⟨hc,hpiece⟩ := List.disjoint_cons_left.1 h
    have hno : sep.isPrefixOf (c :: (piece ++ rest)) = false := by
      cases sep with
      | nil => exact absurd rfl hsep
      | cons d more =>
        have hne : d ≠ c := fun he => hc (he ▸ List.mem_cons_self)
        simp [List.isPrefixOf,hne]
    rw [List.cons_append,splitFrom,hno,if_neg Bool.false_ne_true,ih hpiece]
    simp

theorem splitFrom_sep (hsep : sep ≠ []) (done rest : List Char) :
    splitFrom sep 0 done (sep ++ rest) = done.reverse :: splitFrom sep 0 [] rest := by
  obtain ⟨c,more,rfl⟩ := List.exists_cons_of_ne_nil hsep
  have hyes : (c :: more).isPrefixOf (c :: (more ++ rest)) = true :=
    List.isPrefixOf_iff_prefix.2 (List.prefix_append (c :: more) rest)
  rw [List.cons_append,splitFrom,hyes,if_pos rfl,splitFrom_drop]
  simp

theorem splitFrom_ne_nil (sep : List Char) (skip : Nat) (done cs : List Char) :
    splitFrom sep skip done cs ≠ [] := by
  induction cs generalizing skip done with
  | nil => cases skip <;> simp [splitFrom]
  | cons c rest ih =>
    cases skip with
    | succ n => exact ih n done
    | zero =>
      rw [splitFrom]
      split
      · exact List.cons_ne_nil _ _
      · exact ih 0 (c :: done)

theorem split_ne_nil (s sep : String) : split s sep ≠ [] :=
  fun h => splitFrom_ne_nil _ _ _ _ (List.map_eq_nil_iff.1 h)

theorem intercalate_splitFrom (hsep : sep ≠ []) (skip : Nat) (done cs : List Char) :
    sep.intercalate (splitFrom sep skip done cs) = done.reverse ++ cs.drop skip := by
  induction cs generalizing skip done with
  | nil => cases skip <;> simp [splitFrom]
  | cons c rest ih =>
    cases skip with
    | succ n => exact ih n done
    | zero =>
      rw [splitFrom]
      split
      · rename_i hp
        obtain ⟨behind,hbehind⟩ := List.isPrefixOf_iff_prefix.1 hp
        obtain ⟨d,more,rfl⟩ := List.exists_cons_of_ne_nil hsep
        obtain ⟨rfl,rfl⟩ := List.cons.inj hbehind
        rw [List.intercalate_cons_of_ne_nil (splitFrom_ne_nil _ _ _ _),ih]
        simp
      · rw [ih]
        simp

theorem join_split {sep : String} (hsep : sep ≠ "") (s : String) : join sep (split s sep) = s := by
  have hne : sep.toList ≠ [] := fun h => hsep (String.toList_eq_nil_iff.1 h)
  have hsame : (splitFrom sep.toList 0 [] s.toList).map (String.toList ∘ String.ofList) =
      splitFrom sep.toList 0 [] s.toList := by
    simp [Function.comp_def]
  rw [join,split,← String.toList_inj,String.toList_intercalate,List.map_map,hsame,
    intercalate_splitFrom hne]
  rfl

def NoCommonChar (s t : String) : Prop := ∀ c ∈ s.toList, c ∉ t.toList

instance (s t : String) : Decidable (NoCommonChar s t) :=
  List.decidableBAll (fun c => c ∉ t.toList) s.toList

/-- Pieces that have no character of the separator are cut off in front of whatever stands last. -/
theorem split_join {sep : String} (hsep : sep ≠ "") {pieces : List String}
    (h : ∀ piece ∈ pieces, NoCommonChar piece sep) (last : String) :
    split (join sep (pieces ++ [last])) sep = pieces ++ split last sep := by
  have hne : sep.toList ≠ [] := fun h => hsep (String.toList_eq_nil_iff.1 h)
  induction pieces with
  | nil => simp [join]
  | cons piece pieces ih =>
    obtain ⟨hpiece,hpieces⟩ := List.forall_mem_cons.1 h
    have hjoin : join sep (piece :: (pieces ++ [last])) =
        piece ++ sep ++ join sep (pieces ++ [last]) :=
      String.intercalate_cons_of_ne_nil (by simp)
    rw [List.cons_append,List.cons_append,hjoin,← ih hpieces]
    simp only [split,String.toList_append,List.append_assoc]
    rw [splitFrom_noCommonChar hne hpiece,splitFrom_sep hne]
    simp

theorem split_noCommonChar {sep s : String} (hsep : sep ≠ "") (h : NoCommonChar s sep) :
    split s sep = [s] := by
  have hne : sep.toList ≠ [] := fun h => hsep (String.toList_eq_nil_iff.1 h)
  have hone := splitFrom_noCommonChar hne h [] []
  rw [List.append_nil] at hone
  rw [split,hone]
  simp [splitFrom]

end Text

namespace Barcode

open Text

def Pattern.sep (p : Pattern) : String := given p.separator "-"

def Pattern.places (p : Pattern) : List String := split (p.template.getD "") p.sep

/-- What is printed in a place: the type, the detail line, or the place itself. -/
def inPlace (type detail place : String) : String :=
  if place = typePlace then type else if place = detailPlace then detail else place

/-- The barcode of a template with a type and a detail line in their places. -/
def Pattern.printed (p : Pattern) (type detail : String) : String :=
  join p.sep (p.places.map (inPlace type detail))

/-- A type and a detail line that a template keeps apart: each has one place, the type is one of
those that there are, in any letter case, and no piece has a character of the separator, except
for a detail line in the last place. -/
structure Pattern.Prints (p : Pattern) (types : List String) (type detail : String) : Prop where
  free : p.fixedType.getD "" = ""
  typeOnce : p.places.count typePlace = 1
  detailOnce : p.places.count detailPlace = 1
  type_ne : type ≠ ""
  detail_ne : detail ≠ ""
  known : ∃ name ∈ types, lower name = lower type
  type_apart : NoCommonChar type p.sep
  literal_apart : ∀ place ∈ p.places, place ≠ typePlace → place ≠ detailPlace →
    NoCommonChar place p.sep
  detail_apart : p.places.getLast? ≠ some detailPlace → NoCommonChar detail p.sep

variable {p : Pattern} {types pieces : List String} {type detail : String}

theorem Pattern.sep_ne (p : Pattern) : p.sep ≠ "" := by
  unfold sep given
  split
  · split
    · decide
    · rename_i h
      exact fun he => h (he ▸ rfl)
  · decide

theorem typePlace_ne : typePlace ≠ detailPlace := by decide

theorem inPlace_type (type detail : String) : inPlace type detail typePlace = type := if_pos rfl

theorem inPlace_detail (type detail : String) : inPlace type detail detailPlace = detail := by
  rw [inPlace,if_neg typePlace_ne.symm,if_pos rfl]

namespace Pattern.Prints

/-- Only a detail line in the last place may have characters of the separator. -/
theorem apart (h : p.Prints types type detail) {place : String} (hp : place ∈ p.places)
    (hd : place = detailPlace → p.places.getLast? ≠ some detailPlace) :
    NoCommonChar (inPlace type detail place) p.sep := by
  unfold inPlace
  split
  · exact h.type_apart
  · rename_i htype
    split
    · rename_i hdetail
      exact h.detail_apart (hd hdetail)
    · rename_i hdetail
      exact h.literal_apart place hp htype hdetail

theorem split_printed (h : p.Prints types type detail)
    (hlast : p.places.getLast? ≠ some detailPlace) :
    split (p.printed type detail) p.sep = p.places.map (inPlace type detail) := by
  obtain hnil | ⟨init,last,hplaces⟩ := List.eq_nil_or_concat p.places
  · have := h.typeOnce
    rw [hnil] at this
    cases this
  · rw [List.concat_eq_append] at hplaces
    have hall : ∀ place ∈ p.places, NoCommonChar (inPlace type detail place) p.sep :=
      fun place hp => h.apart hp fun _ => hlast
    rw [hplaces] at hall
    rw [printed,hplaces,List.map_append,List.map_singleton,
      split_join p.sep_ne (List.forall_mem_map.2 fun place hp => hall place (by simp [hp])),
      split_noCommonChar p.sep_ne (hall last (by simp))]

theorem split_printed_last (h : p.Prints types type detail) {init : List String}
    (hplaces : p.places = init ++ [detailPlace]) : detailPlace ∉ init ∧
      split (p.printed type detail) p.sep =
        init.map (inPlace type detail) ++ split detail p.sep := by
  have hinit : detailPlace ∉ init := by
    have honce := h.detailOnce
    rw [hplaces,List.count_append,List.count_singleton_self] at honce
    exact List.count_eq_zero.1 (Nat.succ.inj honce)
  have hall : ∀ place ∈ init, NoCommonChar (inPlace type detail place) p.sep :=
    fun place hp => h.apart (hplaces ▸ List.mem_append_left _ hp)
      fun he => absurd (he ▸ hp) hinit
  refine ⟨hinit,?_⟩
  rw [printed,hplaces,List.map_append,List.map_singleton,
    split_join p.sep_ne (List.forall_mem_map.2 hall),inPlace_detail]

end Pattern.Prints

theorem matchTemplate?_of {typeAt detailAt : Nat} (h : p.Prints types type detail)
    (htypeAt : p.places.idxOf? typePlace = some typeAt)
    (hdetailAt : p.places.idxOf? detailPlace = some detailAt)
    (htype : pieces[typeAt]? = some type)
    (hdetail : (if detailAt + 1 == p.places.length then join p.sep (pieces.drop detailAt)
      else pieces[detailAt]?.getD "") = detail) (hlt : detailAt < pieces.length) :
    matchTemplate? p p.sep types pieces = some ⟨type,detail,p.bucket,p.id⟩ := by
  have hknown : knows types type = true := by
    obtain ⟨name,hname,hlower⟩ := h.known
    exact List.any_eq_true.2 ⟨name,hname,beq_iff_eq.2 hlower⟩
  have hlong : ¬pieces.length ≤ max typeAt detailAt := by
    have := (List.getElem?_eq_some_iff.1 htype).1
    omega
  have hfit : (decide (pieces.length ≤ max typeAt detailAt) || type.isEmpty || detail.isEmpty ||
      !knows types type) = false := by
    simp [hlong,hknown,h.type_ne,h.detail_ne]
  unfold Pattern.places at htypeAt hdetailAt hdetail
  simp only [matchTemplate?,htypeAt,hdetailAt,List.getD_eq_getElem?_getD,htype,Option.getD_some,
    hdetail,hfit,Bool.false_eq_true,if_false]

theorem getElem?_concat_eq_some {init : List String} {last place : String} {i : Nat}
    (h : (init ++ [last])[i]? = some place) :
    init[i]? = some place ∨ i = init.length ∧ place = last := by
  obtain hlt | hge := Nat.lt_or_ge i init.length
  · exact .inl (List.getElem?_append_left hlt ▸ h)
  · rw [List.getElem?_append_right hge] at h
    rw [List.getElem?_singleton,Option.ite_none_right_eq_some] at h
    exact .inr ⟨Nat.le_antisymm (Nat.le_of_sub_eq_zero h.1) hge,(Option.some.inj h.2).symm⟩

theorem idxOf?_of_count {places : List String} {place : String} (h : places.count place = 1) :
    ∃ i, places.idxOf? place = some i ∧ places[i]? = some place := by
  have hmem : place ∈ places := List.count_pos_iff.1 (h ▸ Nat.one_pos)
  cases hi : places.idxOf? place with
  | none => exact absurd hmem (List.idxOf?_eq_none_iff.1 hi)
  | some i =>
    obtain ⟨hlt,hat,-⟩ := List.idxOf?_eq_some_iff.1 hi
    exact ⟨i,rfl,hat ▸ List.getElem?_eq_getElem hlt⟩

theorem matchTemplate?_last (h : p.Prints types type detail) {init : List String}
    (hplaces : p.places = init ++ [detailPlace]) :
    matchTemplate? p p.sep types (split (p.printed type detail) p.sep) =
      some ⟨type,detail,p.bucket,p.id⟩ := by
  obtain ⟨typeAt,htypeAt,htype⟩ := idxOf?_of_count h.typeOnce
  obtain ⟨detailAt,hdetailAt,hdetail⟩ := idxOf?_of_count h.detailOnce
  obtain ⟨hinit,hpieces⟩ := h.split_printed_last hplaces
  have hlength : (init.map (inPlace type detail)).length = init.length := List.length_map _
  rw [hplaces] at htype hdetail
  obtain rfl : detailAt = init.length := by
    obtain hbefore | ⟨hlast,-⟩ := getElem?_concat_eq_some hdetail
    · exact absurd (List.mem_of_getElem? hbefore) hinit
    · exact hlast
  obtain htypeBefore | ⟨-,hsame⟩ := getElem?_concat_eq_some htype
  · have hlt : typeAt < init.length := (List.getElem?_eq_some_iff.1 htypeBefore).1
    refine matchTemplate?_of h htypeAt hdetailAt ?_ ?_ ?_
    · rw [hpieces,List.getElem?_append_left (hlength ▸ hlt),List.getElem?_map,htypeBefore,
        Option.map_some,inPlace_type]
    · rw [if_pos (by simp [hplaces]),hpieces,List.drop_left' hlength,join_split p.sep_ne]
    · have hbehind := List.length_pos_iff.2 (split_ne_nil detail p.sep)
      rw [hpieces,List.length_append,hlength]
      omega
  · exact absurd hsame typePlace_ne

theorem matchTemplate?_within (h : p.Prints types type detail)
    (hlast : p.places.getLast? ≠ some detailPlace) :
    matchTemplate? p p.sep types (split (p.printed type detail) p.sep) =
      some ⟨type,detail,p.bucket,p.id⟩ := by
  obtain ⟨typeAt,htypeAt,htype⟩ := idxOf?_of_count h.typeOnce
  obtain ⟨detailAt,hdetailAt,hdetail⟩ := idxOf?_of_count h.detailOnce
  have hpieces := h.split_printed hlast
  have hnotLast : detailAt + 1 ≠ p.places.length := fun he => hlast (by
    rw [List.getLast?_eq_getElem?,← he]
    exact hdetail)
  refine matchTemplate?_of h htypeAt hdetailAt ?_ ?_ ?_
  · rw [hpieces,List.getElem?_map,htype,Option.map_some,inPlace_type]
  · rw [if_neg (by simpa using hnotLast),hpieces,List.getElem?_map,hdetail,Option.map_some,
      Option.getD_some,inPlace_detail]
  · rw [hpieces,List.length_map]
    exact (List.getElem?_eq_some_iff.1 hdetail).1

theorem matchTemplate?_printed (h : p.Prints types type detail) :
    matchTemplate? p p.sep types (split (p.printed type detail) p.sep) =
      some ⟨type,detail,p.bucket,p.id⟩ := by
  by_cases hlast : p.places.getLast? = some detailPlace
  · obtain ⟨init,hplaces⟩ := List.getLast?_eq_some_iff.1 hlast
    exact matchTemplate?_last h hplaces
  · exact matchTemplate?_within h hlast

theorem two_le_length {sep : String} {m : Match} (h : matchTemplate? p sep types pieces = some m) :
    2 ≤ pieces.length := by
  unfold matchTemplate? at h
  simp only at h
  split at h
  · rename_i typeAt detailAt htypeAt hdetailAt
    obtain ⟨hgood,-⟩ := Option.ite_none_left_eq_some.1 h
    simp only [Bool.or_eq_true,not_or,decide_eq_true_eq] at hgood
    have hne : typeAt ≠ detailAt := by
      rintro rfl
      obtain ⟨_,htype,-⟩ := List.idxOf?_eq_some_iff.1 htypeAt
      obtain ⟨_,hdetail,-⟩ := List.idxOf?_eq_some_iff.1 hdetailAt
      exact typePlace_ne (htype.symm.trans hdetail)
    have := hgood.1.1.1
    omega
  · cases h

theorem match?_of_template {barcode : String} {m : Match} (hfree : p.fixedType.getD "" = "")
    (h : matchTemplate? p p.sep types (split barcode p.sep) = some m) :
    p.match? types barcode = some m := by
  have hlong := two_le_length h
  unfold Pattern.match?
  change (if (split barcode p.sep).length < 2 then none else _) = some m
  rw [if_neg (Nat.not_lt.2 hlong)]
  split
  · rename_i type htype
    rw [htype,Option.getD_some] at hfree
    rw [hfree]
    exact h
  · exact h

theorem match?_of_fixed (hfixed : p.fixedType = some type) (htype : type ≠ "")
    (hapart : NoCommonChar type p.sep) (hdetail : detail ≠ "") :
    p.match? types (type ++ p.sep ++ detail) = some ⟨type,detail,p.bucket,p.id⟩ := by
  have hpieces : split (type ++ p.sep ++ detail) p.sep = type :: split detail p.sep := by
    have hall : ∀ t ∈ [type], NoCommonChar t p.sep := List.forall_mem_singleton.2 hapart
    have hone := split_join p.sep_ne hall detail
    rwa [List.singleton_append,join,String.intercalate_cons_cons,String.intercalate_singleton] at hone
  have hlong : ¬(type :: split detail p.sep).length < 2 := by
    have := List.length_pos_iff.2 (split_ne_nil detail p.sep)
    rw [List.length_cons]
    omega
  unfold Pattern.match?
  change (if (split (type ++ p.sep ++ detail) p.sep).length < 2 then none else _) = _
  rw [hpieces,if_neg hlong]
  simp only [hfixed,String.isEmpty_iff,htype,if_false]
  change matchFixed? p type p.sep (split (type ++ p.sep ++ detail) p.sep) = _
  rw [hpieces,matchFixed?]
  simp [join_split p.sep_ne,hdetail]

/-- What is printed from a pattern is matched as it was printed: a template gives the type and the
detail line that stand in its places, with its bucket and its number, and a fixed type gives itself
and all that stands behind the separator. -/
theorem match?_printed (p : Pattern) (types : List String) (type detail : String) :
    (p.Prints types type detail →
      p.match? types (p.printed type detail) = some ⟨type,detail,p.bucket,p.id⟩) ∧
    (p.fixedType = some type → type ≠ "" → NoCommonChar type p.sep → detail ≠ "" →
      p.match? types (type ++ p.sep ++ detail) = some ⟨type,detail,p.bucket,p.id⟩) :=
  ⟨fun h => match?_of_template h.free (matchTemplate?_printed h),match?_of_fixed⟩

def podPattern : Pattern :=
  { id := some 7, template := some "\x7bdocumentType\x7d--scan--\x7bdetailLineId\x7d",
    separator := some "--", bucket := some 4 }

/-- A detail line that begins with half a separator and has a whole one further on. -/
theorem match?_printed_pod :
    podPattern.Prints ["BOL","POD"] "pod" "-7--A" ∧
    podPattern.printed "pod" "-7--A" = "pod--scan---7--A" ∧
    podPattern.match? ["BOL","POD"] "pod--scan---7--A" =
      some ⟨"pod","-7--A",some 4,some 7⟩ ∧
    Pattern.match? { id := some 1, fixedType := some "BOL" } [] "BOL-12-A" =
      some ⟨"BOL","12-A",none,some 1⟩ := by
  have hplaces : podPattern.places = [typePlace,"scan",detailPlace] := by decide +kernel
  have prints : podPattern.Prints ["BOL","POD"] "pod" "-7--A" :=
    { free := rfl
      typeOnce := by rw [hplaces]; decide +kernel
      detailOnce := by rw [hplaces]; decide +kernel
      type_ne := by decide
      detail_ne := by decide
      known := ⟨"POD",by simp,by decide +kernel⟩
      type_apart := by decide +kernel
      literal_apart := by rw [hplaces]; decide +kernel
      detail_apart := fun h => absurd (by rw [hplaces]; rfl) h }
  have hprinted : podPattern.printed "pod" "-7--A" = "pod--scan---7--A" := by decide +kernel
  refine ⟨prints,hprinted,?_,?_⟩
  · rw [← hprinted]
    exact (match?_printed podPattern ["BOL","POD"] "pod" "-7--A").1 prints
  · exact (match?_printed { id := some 1, fixedType := some "BOL" } [] "BOL" "12-A").2 rfl
      (by decide) (by decide +kernel) (by decide)

end Barcode

end StepGraph
