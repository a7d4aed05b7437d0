import Mathlib.Algebra.Order.BigOperators.Group.List
import Mathlib.Algebra.Order.Group.Nat
import StepGraph.File.Name
import StepGraph.Proofs.Placeholders

/-!
One notation read by three scanners. Step templates and file names drop the blanks around a path,
query values look it up as it is written. So a template of braces alone is cut alike by all of them,
and means the same in a query value exactly if no hole has blanks around its path.
-/
namespace StepGraph

namespace Text

theorem toList_trim (s : String) :
    (trim s).toList = dropBlanks (dropBlanks s.toList.reverse).reverse := by
  rw [trim,trimLeft,trimRight,String.toList_ofList,String.toList_ofList]

theorem length_dropBlanks_le (cs : List Char) : (dropBlanks cs).length ≤ cs.length :=
  (List.dropWhile_suffix _).length_le

theorem dropBlanks_eq_of_length {cs : List Char} (h : cs.length ≤ (dropBlanks cs).length) :
    dropBlanks cs = cs :=
  (List.dropWhile_suffix _).eq_of_length_le h

theorem length_trim_le (s : String) : (trim s).toList.length ≤ s.toList.length := by
  have hright := length_dropBlanks_le s.toList.reverse
  have hleft := length_dropBlanks_le (dropBlanks s.toList.reverse).reverse
  rw [List.length_reverse] at hright hleft
  rw [toList_trim]
  exact hleft.trans hright

theorem trim_eq_of_length {s : String} (h : s.toList.length ≤ (trim s).toList.length) :
    trim s = s := by
  have hleft := length_dropBlanks_le (dropBlanks s.toList.reverse).reverse
  rw [List.length_reverse] at hleft
  rw [toList_trim] at h
  have hright : dropBlanks s.toList.reverse = s.toList.reverse :=
    dropBlanks_eq_of_length (by simpa using h.trans hleft)
  rw [hright,List.reverse_reverse] at h
  refine String.toList_inj.1 ?_
  rw [toList_trim,hright,List.reverse_reverse,dropBlanks_eq_of_length h]

end Text

namespace Path

open Text

variable {s : String}

theorem withoutMark_mark (rest : List Char) : withoutMark (contextMark ++ rest) = rest := by
  rw [withoutMark,if_pos (List.isPrefixOf_iff_prefix.2 (List.prefix_append _ _)),List.drop_left]

theorem withoutMark_of_unmarked {cs : List Char} (h : ¬contextMark <+: cs) :
    withoutMark cs = cs := by
  rw [withoutMark,if_neg fun hmark => h (List.isPrefixOf_iff_prefix.1 hmark)]

theorem length_withoutMark_le (cs : List Char) : (withoutMark cs).length ≤ cs.length := by
  unfold withoutMark
  split
  · simp
  · exact le_rfl

theorem trim_mark {rest : List Char} (h : s.toList = contextMark ++ rest) :
    (trim s).toList = contextMark ++ (dropBlanks rest.reverse).reverse := by
  have hback : dropBlanks (contextMark ++ rest).reverse =
      dropBlanks rest.reverse ++ contextMark.reverse := by
    rw [List.reverse_append,dropBlanks,List.dropWhile_append]
    split
    · rename_i hnil
      rw [dropBlanks,List.isEmpty_iff.1 hnil]
      rfl
    · rfl
  rw [toList_trim,h,hback,List.reverse_append,List.reverse_reverse]
  rfl

def flatName (path : String) : String := String.ofList (withoutMark path.toList)

theorem toList_flatName (path : String) : (flatName path).toList = withoutMark path.toList :=
  String.toList_ofList

theorem length_flatName_trim_le (s : String) :
    (flatName (trim s)).toList.length ≤ (flatName s).toList.length := by
  rw [toList_flatName,toList_flatName]
  by_cases hmark : contextMark <+: s.toList
  · obtain ⟨rest,hrest⟩ := hmark
    rw [trim_mark hrest.symm,← hrest,withoutMark_mark,withoutMark_mark]
    simpa using length_dropBlanks_le rest.reverse
  · rw [withoutMark_of_unmarked hmark]
    exact (length_withoutMark_le _).trans (length_trim_le s)

theorem trim_eq_of_length_flatName
    (h : (flatName s).toList.length ≤ (flatName (trim s)).toList.length) : trim s = s := by
  rw [toList_flatName,toList_flatName] at h
  refine trim_eq_of_length ?_
  by_cases hmark : contextMark <+: s.toList
  · obtain ⟨rest,hrest⟩ := hmark
    rw [trim_mark hrest.symm,← hrest,withoutMark_mark,withoutMark_mark] at h
    rw [trim_mark hrest.symm,← hrest,List.length_append,List.length_append]
    exact Nat.add_le_add_left h _
  · rw [withoutMark_of_unmarked hmark] at h
    exact h.trans (length_withoutMark_le _)

end Path

def Scope.FindsNothing (scope : Scope) : Prop := ∀ path, scope.find path = .ok .null

theorem Scope.findsNothing_ofItem_null (s : Store) : FindsNothing (ofItem s .null) := fun _ => rfl

def Entries.namesakes (names : List String) : Entries Value := names.map fun k => (k,.text k)

theorem Entries.get?_namesakes {names : List String} {k : String} (h : k ∈ names) :
    get? (namesakes names) k = some (.text k) := by
  induction names with
  | nil => cases h
  | cons first rest ih =>
    by_cases hk : k = first
    · rw [hk]
      exact if_pos rfl
    · exact (if_neg hk).trans (ih ((List.mem_cons.1 h).resolve_left hk))

theorem Value.lookup_namesakes {names : List String} {path : String}
    (h : Path.flatName path ∈ names) :
    lookup (.object (Entries.namesakes names)) path = .text (Path.flatName path) := by
  have hchild : view.child? (.object (Entries.namesakes names)) (Path.flatName path) =
      some (.text (Path.flatName path)) := Entries.get?_namesakes h
  have hkey : Path.wholeKey? view (.object (Entries.namesakes names))
      (Path.withoutMark path.toList) = some (.text (Path.flatName path)) := by
    unfold Path.wholeKey?
    rw [← Path.flatName,hchild]
    rfl
  unfold lookup Path.lookup
  dsimp only
  rw [hkey]
  rfl

def Piece.worded (texts : List Char → String) : Piece → List Char
  | .plain c => [c]
  | .hole body _ => (texts body).toList

theorem Dialect.unambiguous_query : Unambiguous query := by
  constructor <;> simp [query,doubleBrace,dollarBrace]

namespace Template

variable {d : Dialect} {t : Template} {cs : List Char} {s : String}

def Unpadded (t : Template) : Prop :=
  ∀ body written, .hole body written ∈ t → Text.trim (String.ofList body) = String.ofList body

theorem Cut.query (h : Cut Dialect.step cs t) (hcs : '$' ∉ cs) : Cut Dialect.query cs t := by
  induction h with
  | nil => exact .nil
  | hole kind isBody _ ih =>
    obtain rfl := List.mem_singleton.1 kind
    exact .hole List.mem_cons_self isBody (ih fun hrest => hcs (List.mem_append_right _ hrest))
  | @plain c rest t hnone _ ih =>
    refine .plain (fun m hm body isBody hstart => ?_) (ih fun hrest => hcs (.tail _ hrest))
    rcases List.mem_cons.1 hm with rfl | hm
    · exact hnone _ List.mem_cons_self body isBody hstart
    · obtain rfl := List.mem_singleton.1 hm
      exact hcs (hstart.subset List.mem_cons_self)

theorem parse_query (hs : '$' ∉ s.toList) : parse Dialect.query s = parse Dialect.step s :=
  ((cut_scan Dialect.unambiguous_step s.toList).query hs).scan_eq Dialect.unambiguous_query

theorem fill_worded {look : List Char → Except Fault (Option String)} {texts : List Char → String}
    (h : ∀ body written, .hole body written ∈ t → look body = .ok (some (texts body)))
    (missing : Option String) : fill look missing t = .ok (t.flatMap (Piece.worded texts)) := by
  induction t with
  | nil => rfl
  | cons p rest ih =>
    have hrest := ih fun body written hp => h body written (List.mem_cons_of_mem p hp)
    cases p with
    | plain c =>
      rw [fill,hrest]
      rfl
    | hole body written =>
      rw [fill,h body written List.mem_cons_self,hrest]
      rfl

/-- The names that the holes have, with the blanks around their paths and without them. -/
def names (t : Template) : List String :=
  t.flatMap fun p => match p with
    | .plain _ => []
    | .hole body _ =>
      [Path.flatName (String.ofList body),Path.flatName (Text.trim (String.ofList body))]

theorem mem_names {body written : List Char} (h : .hole body written ∈ t) :
    Path.flatName (String.ofList body) ∈ t.names ∧
      Path.flatName (Text.trim (String.ofList body)) ∈ t.names :=
  ⟨List.mem_flatMap.2 ⟨_,h,by simp⟩,List.mem_flatMap.2 ⟨_,h,by simp⟩⟩

def namesakes (t : Template) : Scope := .ofValue (.object (Entries.namesakes t.names))

theorem textAt_namesakes {path : String} (h : Path.flatName path ∈ t.names) :
    t.namesakes.textAt path = .ok (some (Path.flatName path)) := by
  rw [Scope.textAt,namesakes,Scope.find_ofValue,Value.lookup_namesakes h]
  rfl

theorem exactLook_namesakes {body written : List Char} (h : .hole body written ∈ t) :
    exactLook t.namesakes id body = .ok (some (Path.flatName (String.ofList body))) := by
  rw [exactLook,textAt_namesakes (mem_names h).1]
  exact congrArg (fun s => Except.ok (some s)) String.ofList_toList

theorem trimmedLook_namesakes {body written : List Char} (h : .hole body written ∈ t) :
    trimmedLook t.namesakes id body =
      .ok (some (Path.flatName (Text.trim (String.ofList body)))) := by
  rw [trimmedLook,textAt_namesakes (mem_names h).2]
  exact congrArg (fun s => Except.ok (some s)) String.ofList_toList

theorem length_worded_lt {texts texts' : List Char → String}
    (hle : ∀ body, (texts body).toList.length ≤ (texts' body).toList.length)
    {body written : List Char} (hp : .hole body written ∈ t)
    (hlt : (texts body).toList.length < (texts' body).toList.length) :
    (t.flatMap (Piece.worded texts)).length < (t.flatMap (Piece.worded texts')).length := by
  rw [List.length_flatMap,List.length_flatMap]
  refine List.sum_lt_sum _ _ (fun p _ => ?_) ⟨_,hp,hlt⟩
  cases p with
  | plain c => exact le_rfl
  | hole body written => exact hle body

/-- Where every name stands for itself, a name with blanks around it gives a longer text. -/
theorem unpadded_of_namesakes
    (h : fill (exactLook t.namesakes id) none t = fill (trimmedLook t.namesakes id) none t) :
    t.Unpadded := by
  intro body written hp
  by_contra hne
  have hexact := fill_worded (fun _ _ => exactLook_namesakes (t := t)) none
  have htrimmed := fill_worded (fun _ _ => trimmedLook_namesakes (t := t)) none
  rw [hexact,htrimmed] at h
  have hlt := length_worded_lt
    (fun body => Path.length_flatName_trim_le (String.ofList body)) hp
    (lt_of_not_ge fun hge => hne (Path.trim_eq_of_length_flatName hge))
  exact hlt.ne' (congrArg List.length (Except.ok.inj h))

theorem ofList_map_inj {r r' : Except Fault (List Char)}
    (h : String.ofList <$> r = String.ofList <$> r') : r = r' := by
  cases r with
  | error f =>
    cases r' with
    | error f' => cases h; rfl
    | ok cs' => cases h
  | ok cs =>
    cases r' with
    | error f' => cases h
    | ok cs' => exact congrArg Except.ok (String.ofList_injective (Except.ok.inj h))

theorem resolveQuery_eq (hs : '$' ∉ s.toList) (scope : Scope) :
    resolveQuery scope s false = run Dialect.step (exactLook scope id) none s := by
  change String.ofList <$> fill (exactLook scope id) none (parse Dialect.query s) = _
  rw [parse_query hs]
  rfl

theorem resolveQuery_unpadded (hs : '$' ∉ s.toList) (h : (parse Dialect.step s).Unpadded)
    (scope : Scope) :
    resolveQuery scope s false = resolve scope (.text s) := by
  rw [resolveQuery_eq hs,run,fill_congr none fun body written hp => ?_]
  · rfl
  · rw [exactLook,trimmedLook,h body written hp]

theorem resolveQuery_same_iff (hs : '$' ∉ s.toList) :
    (∀ es, resolveQuery (.ofValue (.object es)) s false =
      resolve (.ofValue (.object es)) (.text s)) ↔ (parse Dialect.step s).Unpadded := by
  constructor
  · intro h
    have hsame := h (Entries.namesakes (parse Dialect.step s).names)
    rw [resolveQuery_eq hs] at hsame
    exact unpadded_of_namesakes (ofList_map_inj hsame)
  · intro h es
    exact resolveQuery_unpadded hs h _

theorem find_fileName {response : Scope} (hresponse : response.FindsNothing) {path : String}
    (hpath : Text.startsWith path FileName.responseMark = false) (scope : Scope) :
    (FileName.scope scope response).find path = scope.find path := by
  unfold FileName.scope
  dsimp only
  rw [hpath,if_neg Bool.false_ne_true,hresponse]
  cases scope.find path with
  | error f => rfl
  | ok v =>
    cases v with
    | scalar a => cases a <;> rfl
    | list xs => rfl
    | object es => rfl

theorem resolve_fileName_text (scope response : Scope) (s : String) :
    FileName.resolve scope response (.text s) =
      resolveText (FileName.scope scope response) s id none := by
  by_cases hempty : s = ""
  · subst hempty
    rfl
  · simp [FileName.resolve,Value.orElse,View.orElse,View.truthy,Value.view,Value.layer,
      Scalar.truthy,hempty]

theorem resolve_fileName {response : Scope} (hresponse : response.FindsNothing)
    (hs : ∀ path ∈ (parse Dialect.step s).paths,
      Text.startsWith path FileName.responseMark = false) (scope : Scope) :
    FileName.resolve scope response (.text s) = resolve scope (.text s) := by
  rw [resolve_fileName_text,
    resolveText_congr fun path hpath => find_fileName hresponse (hs path hpath) scope]
  rfl

/-- A text of braces alone is cut alike by all scanners. Without a response a file name becomes what
a step template becomes, wherever no path asks for the response; a query value becomes what it would
become if paths were looked up as they are written. So all three are the same in every context if no
path has blanks around it, and they differ in some context if one has. -/
theorem dialects_agree (hs : '$' ∉ s.toList) :
    parse Dialect.query s = parse Dialect.step s ∧
    (∀ scope response, response.FindsNothing →
      (∀ path ∈ (parse Dialect.step s).paths,
        Text.startsWith path FileName.responseMark = false) →
      FileName.resolve scope response (.text s) = resolve scope (.text s)) ∧
    (∀ scope, resolveQuery scope s false = run Dialect.step (exactLook scope id) none s) ∧
    ((parse Dialect.step s).Unpadded → ∀ scope,
      resolveQuery scope s false = resolve scope (.text s)) ∧
    ((∀ es, resolveQuery (.ofValue (.object es)) s false =
      resolve (.ofValue (.object es)) (.text s)) ↔ (parse Dialect.step s).Unpadded) :=
  ⟨parse_query hs,fun scope _ hresponse hpaths => resolve_fileName hresponse hpaths scope,
    resolveQuery_eq hs,resolveQuery_unpadded hs,resolveQuery_same_iff hs⟩

def betweenTexts : String := "o-\x7b\x7ba\x7d\x7d.x"

theorem dialects_agree_between :
    '$' ∉ betweenTexts.toList ∧
    FileName.resolve (.ofValue (.object [("a",.text "7")])) (.ofItem {} .null) (.text betweenTexts) =
      .ok "o-7.x" ∧
    resolveQuery (.ofValue (.object [("a",.text "7")])) betweenTexts false = .ok "o-7.x" := by
  have hs : '$' ∉ betweenTexts.toList := by decide
  have hparse : parse Dialect.step betweenTexts =
      [.plain 'o',.plain '-',.hole ['a'] ['{','{','a','}','}'],.plain '.',.plain 'x'] := rfl
  have hresolved : resolve (.ofValue (.object [("a",.text "7")])) (.text betweenTexts) =
      .ok "o-7.x" := rfl
  obtain ⟨-,hname,-,hquery,-⟩ := dialects_agree hs
  refine ⟨hs,(hname _ _ (Scope.findsNothing_ofItem_null {}) ?_).trans hresolved,
    (hquery ?_ _).trans hresolved⟩
  · rw [hparse]
    decide
  · rw [hparse]
    intro body written hp
    obtain ⟨rfl,-⟩ : body = ['a'] ∧ written = ['{','{','a','}','}'] := by simpa using hp
    rfl

/-- A blank around a path is dropped in a step template only. -/
example :
    resolve (.ofValue (.object [("a",.text "x")])) (.text "\x7b\x7b a \x7d\x7d") = .ok "x" ∧
    resolveQuery (.ofValue (.object [("a",.text "x")])) "\x7b\x7b a \x7d\x7d" false =
      .ok "\x7b\x7b a \x7d\x7d" :=
  ⟨rfl,rfl⟩

end Template

end StepGraph
