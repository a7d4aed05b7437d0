import StepGraph.Ai.Completion
import StepGraph.Proofs.Numerals

/-!
Fences around a completion. Around a text that has no blanks at its ends, a fence, its tag and the
blanks beside it are dropped, and nothing of the text is, whatever it holds inside. So a document
that is fenced is read as it is read bare.
-/
namespace StepGraph.Completion

open Text

variable {cs front back behind : List Char}

structure Trimmed (cs : List Char) : Prop where
  filled : cs ≠ []
  front : dropBlanks cs = cs
  back : dropBlanks cs.reverse = cs.reverse

theorem dropBlanks_append (hblank : ∀ c ∈ front, isBlank c = true) (hne : cs ≠ [])
    (hcs : dropBlanks cs = cs) (behind : List Char) :
    dropBlanks (front ++ cs ++ behind) = cs ++ behind := by
  rw [List.append_assoc,dropBlanks,List.dropWhile_append_of_pos hblank]
  cases cs with
  | nil => exact absurd rfl hne
  | cons c rest =>
    have hhead : (dropBlanks (c :: rest)).head? = some c := by rw [hcs,List.head?_cons]
    have hc : isBlank c = false := head_dropBlanks hhead
    exact List.dropWhile_cons_of_neg (by simp [hc])

theorem Trimmed.around (h : Trimmed cs) (hfront : ∀ c ∈ front, isBlank c = true)
    (hback : ∀ c ∈ back, isBlank c = true) : trimChars (front ++ cs ++ back) = cs := by
  have hreverse : dropBlanks (front ++ cs ++ back).reverse = cs.reverse ++ front.reverse := by
    rw [List.reverse_append,List.reverse_append,← List.append_assoc]
    exact dropBlanks_append (fun c hc => hback c (List.mem_reverse.1 hc))
      (by simpa using h.filled) h.back _
  rw [trimChars,hreverse,List.reverse_append,List.reverse_reverse,List.reverse_reverse]
  have hdrop := dropBlanks_append hfront h.filled h.front []
  rwa [List.append_nil,List.append_nil] at hdrop

theorem trimmed_of_trim {t : String} (hne : t ≠ "") (ht : trim t = t) : Trimmed t.toList where
  filled := by simpa using hne
  front := by
    have h := dropBlanks_trim t
    rwa [ht] at h
  back := by
    have h := dropBlanks_trim_reverse t
    rwa [ht] at h

def IsTag (tag : List Char) : Prop := tag = [] ∨ tag.map Char.toLower = ['j','s','o','n']

/-- A text that can be told from its fences: it is trimmed, and no fence stands at its ends. -/
structure IsContent (t : String) : Prop where
  filled : t ≠ ""
  trimmed : trim t = t
  opening : ¬fence <+: t.toList
  closing : ¬fence <:+ t.toList

/-- The text between two fences, the first with a tag, and blanks around all of it. -/
def Fenced (t s : String) : Prop :=
  ∃ front tag w w' back : List Char, IsTag tag ∧ w ≠ [] ∧
    (∀ c ∈ front ++ w ++ w' ++ back, isBlank c = true) ∧
    s.toList = front ++ (fence ++ tag ++ w ++ t.toList ++ w' ++ fence) ++ back

theorem foldTag_of_isBlank {c : Char} (h : isBlank c = true) : foldTag c ≠ 'j' := by
  unfold foldTag
  split
  · decide
  · rw [toLower_of_isBlank h]
    rintro rfl
    exact absurd h (by decide)

theorem map_foldTag {tag : List Char} (h : tag.map Char.toLower = ['j','s','o','n']) :
    tag.map foldTag = ['j','s','o','n'] := by
  rw [← h]
  refine List.map_congr_left fun c hc => if_neg fun hlong => ?_
  have hc : c.toLower ∈ ['j','s','o','n'] := h ▸ List.mem_map_of_mem hc
  rw [← Char.ofNat_toNat c,eq_of_beq hlong] at hc
  exact absurd hc (by decide)

/-- Behind the fence a tag is dropped, but nothing of a text that only looks like one: blanks stand
in front of it. -/
theorem withoutOpening_fence {tag w : List Char} (htag : IsTag tag) (hne : w ≠ [])
    (hw : ∀ c ∈ w, isBlank c = true) (hcs : Trimmed cs) (behind : List Char) :
    withoutOpening (fence ++ (tag ++ (w ++ cs ++ behind))) = cs ++ behind := by
  have hdrop : dropBlanks (w ++ cs ++ behind) = cs ++ behind :=
    dropBlanks_append hw hcs.filled hcs.front behind
  unfold withoutOpening
  rw [if_pos (List.isPrefixOf_iff_prefix.2 (List.prefix_append _ _)),List.drop_left]
  rcases htag with rfl | htag
  · obtain ⟨c,w',rfl⟩ := List.exists_cons_of_ne_nil hne
    have hnone : ((c :: (w' ++ cs ++ behind)).take 4).map foldTag ≠ ['j','s','o','n'] := by
      intro h
      exact foldTag_of_isBlank (hw c List.mem_cons_self) (List.cons.inj h).1
    simp only [List.nil_append,List.cons_append] at hdrop ⊢
    rw [if_neg (by simpa using hnone),hdrop]
  · have hlength : tag.length = 4 := by
      rw [← List.length_map Char.toLower,htag]
      rfl
    simp only [← hlength,List.take_left,List.drop_left,map_foldTag htag,beq_self_eq_true,if_true]
    exact hdrop

theorem withoutClosing_fence (front : List Char) : withoutClosing (front ++ fence) = front := by
  unfold withoutClosing
  rw [if_pos (List.isSuffixOf_iff_suffix.2 (List.suffix_append _ _)),List.length_append,
    Nat.add_sub_cancel,List.take_left]

theorem trimmed_fence (middle : List Char) : Trimmed (fence ++ middle ++ fence) where
  filled := by simp [fence]
  front := rfl
  back := by
    rw [List.reverse_append]
    rfl

theorem withoutFences_fenced {t s : String} (ht : IsContent t) (hs : Fenced t s) :
    withoutFences s = t := by
  obtain ⟨front,tag,w,w',back,htag,hne,hblank,hs⟩ := hs
  have htrimmed := trimmed_of_trim ht.filled ht.trimmed
  simp only [List.mem_append,or_imp,forall_and] at hblank
  obtain ⟨⟨⟨hfront,hw⟩,hw'⟩,hback⟩ := hblank
  have houter : trimChars s.toList =
      fence ++ (tag ++ (w ++ t.toList ++ (w' ++ fence))) := by
    have h := (trimmed_fence (tag ++ w ++ t.toList ++ w')).around hfront hback
    rw [hs]
    simpa only [List.append_assoc] using h
  have hinner : trimChars ([] ++ t.toList ++ w') = t.toList := htrimmed.around (by simp) hw'
  rw [List.nil_append] at hinner
  rw [withoutFences,houter,withoutOpening_fence htag hne hw htrimmed,
    ← List.append_assoc,withoutClosing_fence,hinner,String.ofList_toList]

theorem withoutFences_content {t : String} (ht : IsContent t) : withoutFences t = t := by
  have hsame : trimChars t.toList = t.toList := by
    rw [trimChars,← toList_trim,ht.trimmed]
  have hopening : withoutOpening t.toList = t.toList :=
    if_neg fun h => ht.opening (List.isPrefixOf_iff_prefix.1 h)
  have hclosing : withoutClosing t.toList = t.toList :=
    if_neg fun h => ht.closing (List.isSuffixOf_iff_suffix.1 h)
  rw [withoutFences,hsame,hopening,hclosing,hsame,String.ofList_toList]

def told (s : String) (output : Value) : Except String Value :=
  (read s output).mapError Fault.message

theorem told_congr {s s' : String} (h : withoutFences s = withoutFences s') (output : Value) :
    told s output = told s' output := by
  unfold told read
  rw [h]
  split <;> rfl

/-- A fence around a text is transparent: with it and without it the text itself is read, whatever
fences or tags the text has inside. -/
theorem read_fenced {t s : String} (ht : IsContent t) (hs : Fenced t s) (output : Value) :
    withoutFences t = t ∧ withoutFences s = t ∧ told s output = told t output := by
  have hfenced : withoutFences s = t := withoutFences_fenced ht hs
  have hbare : withoutFences t = t := withoutFences_content ht
  exact ⟨hbare,hfenced,told_congr (hfenced.trans hbare.symm) output⟩

/-- A document whose text has a fence and a tag inside. -/
theorem read_fenced_inside :
    let t := "[\"\x60\x60\x60json \x60\x60\x60\"]"
    let s := "\n\x60\x60\x60Json\n" ++ t ++ "\x60\x60\x60 "
    IsContent t ∧ Fenced t s ∧
      withoutFences t = t ∧ withoutFences s = t ∧ told s .null = told t .null := by
  intro t s
  have ht : IsContent t := {
    filled := by decide
    trimmed := by decide
    opening := fun h => absurd (List.isPrefixOf_iff_prefix.2 h) (by decide)
    closing := fun h => absurd (List.isSuffixOf_iff_suffix.2 h) (by decide) }
  have hblank : ∀ c ∈ ['\n'] ++ ['\n'] ++ [] ++ [' '], isBlank c = true :=
    List.all_eq_true.1 (by decide)
  have hs : Fenced t s :=
    ⟨['\n'],['J','s','o','n'],['\n'],[],[' '],.inr rfl,List.cons_ne_nil _ _,hblank,by decide⟩
  exact ⟨ht,hs,read_fenced ht hs .null⟩

end StepGraph.Completion
