import Mathlib.Data.List.TakeWhile
import StepGraph.Proofs.Writable
import StepGraph.Template

/-!
How a template is read. A text is cut into plain characters and holes in one way only, from the
left, and what is put into a hole stands in the result as it is. Which text a template becomes
depends on its holes alone, and it is the same in every context only if the template has none.
-/
namespace StepGraph

open Attempt

/-- What can stand between the marks of a hole: something, and no closing brace. -/
def Marks.IsBody (body : List Char) : Prop := body ≠ [] ∧ '}' ∉ body

def Marks.around (m : Marks) (body : List Char) : List Char := m.opening ++ (body ++ m.closing)

/-- Kinds of hole that can be told apart: a body ends at the first closing brace, and no two kinds
begin alike. -/
structure Dialect.Unambiguous (d : Dialect) : Prop where
  closing : ∀ m ∈ d, ∃ cs, m.closing = '}' :: cs
  opening : ∀ m ∈ d, m.opening ≠ []
  apart : ∀ m ∈ d, ∀ m' ∈ d, m.opening.head? = m'.opening.head? → m = m'

theorem Scope.find_ofValue (record : Value) (path : String) :
    (Scope.ofValue record).find path = .ok (record.lookup path) := by
  simp only [ofValue,of,Value.access,Value.lookup]
  cases Path.lookup Value.view record path <;> rfl

namespace Marks

variable {m : Marks} {body cs rest : List Char}

theorem takeWhile_body (hb : '}' ∉ body) (rest : List Char) :
    (body ++ '}' :: rest).takeWhile (· != '}') = body := by
  have hall : ∀ c ∈ body, (c != '}') = true := fun c hc => by
    rw [bne_iff_ne]
    rintro rfl
    exact hb hc
  rw [List.takeWhile_append_of_pos hall]
  simp

theorem around_ne_nil (hb : IsBody body) : m.around body ≠ [] := by
  simp [around,hb.1]

theorem hole?_eq_some (hm : ∃ cs, m.closing = '}' :: cs) :
    m.hole? cs = some body ↔ IsBody body ∧ m.around body <+: cs := by
  obtain ⟨more,hmore⟩ := hm
  unfold hole? around
  by_cases ho : m.opening.isPrefixOf cs = true
  · obtain ⟨rest,rfl⟩ := List.isPrefixOf_iff_prefix.1 ho
    rw [if_pos ho,List.drop_left,List.prefix_append_right_inj]
    simp only [Option.ite_none_right_eq_some,Option.some.injEq,Bool.and_eq_true,
      Bool.not_eq_true',List.isEmpty_eq_false_iff,List.isPrefixOf_iff_prefix]
    constructor
    · rintro ⟨⟨hne,hclosing⟩,rfl⟩
      refine ⟨⟨hne,fun hmem => ?_⟩,?_⟩
      · simpa using List.mem_takeWhile_imp hmem
      · obtain ⟨after,hafter⟩ := hclosing
        refine ⟨after,?_⟩
        rw [List.append_assoc,hafter]
        exact List.prefix_iff_eq_append.1 (List.takeWhile_prefix _)
    · rintro ⟨hb,after,rfl⟩
      rw [List.append_assoc,hmore,List.cons_append,takeWhile_body hb.2,List.drop_left]
      exact ⟨⟨hb.1,after,rfl⟩,rfl⟩
  · rw [if_neg ho]
    simp only [reduceCtorEq,false_iff]
    rintro ⟨-,h⟩
    exact ho (List.isPrefixOf_iff_prefix.2 ((List.prefix_append _ _).trans h))

end Marks

namespace Dialect

variable {d : Dialect} {m : Marks} {body cs : List Char} {size : Nat}

theorem unambiguous_step : Unambiguous step := by
  constructor <;> simp [step,doubleBrace]

theorem unambiguous_pathVariable : Unambiguous pathVariable := by
  constructor <;> simp [pathVariable,singleBrace,dollarBrace]

/-- A hole at the start of a text is of one kind and has one body. -/
theorem Unambiguous.unique (hd : d.Unambiguous) {m' : Marks} {body' : List Char} (hm : m ∈ d)
    (hm' : m' ∈ d)
    (hb : Marks.IsBody body) (hb' : Marks.IsBody body') (h : m.around body <+: cs)
    (h' : m'.around body' <+: cs) : m = m' ∧ body = body' := by
  have head {n : Marks} {b : List Char} (hn : n ∈ d) (h : n.around b <+: cs) :
      n.opening.head? = cs.head? := by
    obtain ⟨c,more,hopen⟩ := List.exists_cons_of_ne_nil (hd.opening n hn)
    obtain ⟨rest,rfl⟩ := h
    rw [Marks.around,hopen]
    rfl
  obtain rfl := hd.apart m hm m' hm' ((head hm h).trans (head hm' h').symm)
  refine ⟨rfl,?_⟩
  have hclosing := hd.closing m hm
  have hbody := (Marks.hole?_eq_some hclosing).2 ⟨hb,h⟩
  exact Option.some.inj (hbody.symm.trans ((Marks.hole?_eq_some hclosing).2 ⟨hb',h'⟩))

theorem hole?_eq_none (hd : d.Unambiguous) :
    d.hole? cs = none ↔ ∀ m ∈ d, ∀ body, Marks.IsBody body → ¬m.around body <+: cs := by
  unfold hole?
  rw [List.findSome?_eq_none_iff]
  refine forall₂_congr fun m hm => ?_
  rw [Option.map_eq_none_iff]
  constructor
  · intro h body hb hcs
    rw [(Marks.hole?_eq_some (hd.closing m hm)).2 ⟨hb,hcs⟩] at h
    cases h
  · intro h
    refine Option.eq_none_iff_forall_ne_some.2 fun body hbody => ?_
    obtain ⟨hb,hcs⟩ := (Marks.hole?_eq_some (hd.closing m hm)).1 hbody
    exact h body hb hcs

theorem hole?_around (hd : d.Unambiguous) (hm : m ∈ d) (hb : Marks.IsBody body)
    (h : m.around body <+: cs) : d.hole? cs = some (body,(m.around body).length) := by
  cases hfound : d.hole? cs with
  | none => exact absurd h ((hole?_eq_none hd).1 hfound m hm body hb)
  | some found =>
    obtain ⟨m',hm',hsome⟩ := List.exists_of_findSome?_eq_some hfound
    obtain ⟨body',hbody,rfl⟩ := Option.map_eq_some_iff.1 hsome
    obtain ⟨hb',h'⟩ := (Marks.hole?_eq_some (hd.closing m' hm')).1 hbody
    obtain ⟨rfl,rfl⟩ := hd.unique hm hm' hb hb' h h'
    simp [Marks.around,Nat.add_assoc]

end Dialect

def Piece.written : Piece → List Char
  | .plain c => [c]
  | .hole _ written => written

def Template.text (t : Template) : List Char := t.flatMap Piece.written

def Template.plainly (cs : List Char) : Template := cs.map .plain

/-- What stands in the place of a piece: a plain character itself, and for a hole the text that is
found for its body, else the text for what is missing, else the hole as it is written. -/
def Piece.replaced (look : List Char → Except Fault (Option String)) (missing : Option String) :
    Piece → Except Fault (List Char)
  | .plain c => .ok [c]
  | .hole body written => do return ((← look body).or missing).elim written String.toList

/-- What a piece of a template for steps is resolved to: the text of the value at the trimmed path,
changed as its place demands; where the path leads to null, the text for what is missing or else the
hole as it is written. -/
def Piece.resolved (scope : Scope) (e : Template.Escape) (missing : Option String) :
    Piece → Except Fault (List Char)
  | .plain c => .ok [c]
  | .hole body written => do
    let v ← scope.find (Text.trim (String.ofList body))
    if v.isNull then return missing.elim written String.toList
    return e (← v.asText).toList

namespace Template

/-- A text cut into pieces from the left: a hole wherever one is written, and a plain character
where none is. -/
inductive Cut (d : Dialect) : List Char → Template → Prop
  | nil : Cut d [] []
  | hole {m : Marks} {body rest : List Char} {t : Template} (kind : m ∈ d)
      (isBody : Marks.IsBody body) (behind : Cut d rest t) :
      Cut d (m.around body ++ rest) (.hole body (m.around body) :: t)
  | plain {c : Char} {rest : List Char} {t : Template}
      (none : ∀ m ∈ d, ∀ body, Marks.IsBody body → ¬m.around body <+: c :: rest)
      (behind : Cut d rest t) : Cut d (c :: rest) (.plain c :: t)

variable {d : Dialect} {t : Template} {cs : List Char}

theorem Cut.text_eq (h : Cut d cs t) : t.text = cs := by
  induction h with
  | nil => rfl
  | hole _ _ _ ih => exact congrArg (_ ++ ·) ih
  | plain _ _ ih => exact congrArg (_ :: ·) ih

theorem scan_drop (d : Dialect) (skip : Nat) (cs : List Char) :
    scan d skip cs = scan d 0 (cs.drop skip) := by
  induction cs generalizing skip with
  | nil => cases skip <;> rfl
  | cons c rest ih =>
    cases skip with
    | zero => rfl
    | succ n => exact ih n

theorem scan_hole (hd : d.Unambiguous) {m : Marks} {body rest : List Char} (hm : m ∈ d)
    (hb : Marks.IsBody body) :
    scan d 0 (m.around body ++ rest) = .hole body (m.around body) :: scan d 0 rest := by
  obtain ⟨c,more,hcs⟩ := List.exists_cons_of_ne_nil (Marks.around_ne_nil (m := m) hb)
  have hfound := Dialect.hole?_around hd hm hb (List.prefix_append (m.around body) rest)
  rw [hcs,List.cons_append,scan,← List.cons_append,← hcs,hfound]
  simp only [List.take_left]
  rw [scan_drop,hcs]
  simp

theorem cut_scan (hd : d.Unambiguous) (cs : List Char) : Cut d cs (scan d 0 cs) := by
  induction hn : cs.length using Nat.strongRecOn generalizing cs with
  | _ n ih =>
    cases cs with
    | nil => exact .nil
    | cons c rest =>
      cases hfound : d.hole? (c :: rest) with
      | none =>
        rw [scan,hfound]
        have hshort : rest.length < n := by simp [← hn]
        exact .plain ((Dialect.hole?_eq_none hd).1 hfound) (ih rest.length hshort rest rfl)
      | some found =>
        obtain ⟨m,hm,hsome⟩ := List.exists_of_findSome?_eq_some hfound
        obtain ⟨body,hbody,-⟩ := Option.map_eq_some_iff.1 hsome
        obtain ⟨hb,after,hcs⟩ := (Marks.hole?_eq_some (hd.closing m hm)).1 hbody
        rw [← hcs,scan_hole hd hm hb]
        have hpos := List.length_pos_iff.2 (Marks.around_ne_nil (m := m) hb)
        have hlen := congrArg List.length hcs
        rw [List.length_append] at hlen
        exact .hole hm hb (ih after.length (by omega) after rfl)

theorem Cut.scan_eq (hd : d.Unambiguous) (h : Cut d cs t) : scan d 0 cs = t := by
  induction h with
  | nil => rfl
  | hole hm hb _ ih => rw [scan_hole hd hm hb,ih]
  | plain hnone _ ih => rw [scan,(Dialect.hole?_eq_none hd).2 hnone,ih]

theorem cut_iff (hd : d.Unambiguous) : Cut d cs t ↔ t = scan d 0 cs :=
  ⟨fun h => (h.scan_eq hd).symm,fun h => h ▸ cut_scan hd cs⟩

theorem fill_eq (look : List Char → Except Fault (Option String)) (missing : Option String)
    (t : Template) :
    fill look missing t = List.flatten <$> t.mapM (Piece.replaced look missing) := by
  induction t with
  | nil => rfl
  | cons p rest ih =>
    rw [List.mapM_cons]
    cases p with
    | plain c =>
      rw [fill,ih]
      cases rest.mapM (Piece.replaced look missing) <;> rfl
    | hole body written =>
      rw [fill,ih,Piece.replaced]
      cases look body with
      | error f => rfl
      | ok found =>
        cases rest.mapM (Piece.replaced look missing) with
        | error f => rfl
        | ok texts => cases found <;> cases missing <;> rfl

theorem fill_congr {look look' : List Char → Except Fault (Option String)}
    (missing : Option String) {t : Template}
    (h : ∀ body written, .hole body written ∈ t → look body = look' body) :
    fill look missing t = fill look' missing t := by
  induction t with
  | nil => rfl
  | cons p rest ih =>
    have hrest := ih fun body written hp => h body written (List.mem_cons_of_mem p hp)
    cases p with
    | plain c => rw [fill,fill,hrest]
    | hole body written => rw [fill,fill,hrest,h body written List.mem_cons_self]

theorem fill_plain {t : Template} (h : t.hasHole = false)
    (look : List Char → Except Fault (Option String)) (missing : Option String) :
    fill look missing t = .ok t.text := by
  induction t with
  | nil => rfl
  | cons p rest ih =>
    cases p with
    | plain c =>
      rw [fill,ih h]
      rfl
    | hole body written => cases h

def paths (t : Template) : List String :=
  t.filterMap fun p => match p with
    | .plain _ => none
    | .hole body _ => some (Text.trim (String.ofList body))

theorem mem_paths {body written : List Char} (h : .hole body written ∈ t) :
    Text.trim (String.ofList body) ∈ t.paths :=
  List.mem_filterMap.2 ⟨_,h,rfl⟩

theorem replaced_trimmed (scope : Scope) (e : Escape) (missing : Option String) (p : Piece) :
    p.replaced (trimmedLook scope e) missing = p.resolved scope e missing := by
  cases p with
  | plain c => rfl
  | hole body written =>
    rw [Piece.replaced,Piece.resolved,trimmedLook,Scope.textAt]
    cases scope.find (Text.trim (String.ofList body)) with
    | error f => rfl
    | ok v =>
      change (Option.map (escaped e) <$> (if v.isNull then pure none else some <$> v.asText)) >>=
        _ = if v.isNull then _ else v.asText >>= _
      split
      · rfl
      · cases v.asText with
        | error f => rfl
        | ok text =>
          change Except.ok (escaped e text).toList = .ok (e text.toList)
          rw [escaped,String.toList_ofList]

theorem resolveText_eq (scope : Scope) (s : String) (e : Escape) (missing : Option String) :
    resolveText scope s e missing = (fun texts => String.ofList texts.flatten) <$>
      (parse Dialect.step s).mapM (Piece.resolved scope e missing) := by
  rw [resolveText,run,fill_eq,← funext (replaced_trimmed scope e missing)]
  cases (parse Dialect.step s).mapM (Piece.replaced (trimmedLook scope e) missing) <;> rfl

theorem resolveText_congr {scope scope' : Scope} {s : String}
    (h : ∀ path ∈ (parse Dialect.step s).paths, scope.find path = scope'.find path) (e : Escape)
    (missing : Option String) : resolveText scope s e missing = resolveText scope' s e missing := by
  rw [resolveText,run,fill_congr missing fun body written hp => ?_]
  · rfl
  · rw [trimmedLook,trimmedLook,Scope.textAt,Scope.textAt,h _ (mem_paths hp)]

theorem resolveText_error {scope : Scope} {s : String} {e : Escape} {missing : Option String}
    {f : Fault} (h : resolveText scope s e missing = .error f) :
    ∃ path ∈ (parse Dialect.step s).paths, scope.textAt path = .error f := by
  have hpieces : (parse Dialect.step s).mapM (Piece.replaced (trimmedLook scope e) missing) =
      .error f := by
    rw [resolveText,run,fill_eq] at h
    exact eq_error_of_map (eq_error_of_map h)
  obtain ⟨p,hp,hf⟩ := exists_of_mapM_error hpieces
  cases p with
  | plain c => cases hf
  | hole body written =>
    refine ⟨_,mem_paths hp,eq_error_of_map (f := Option.map (escaped e)) ?_⟩
    change trimmedLook scope e body = .error f
    rw [Piece.replaced] at hf
    cases hlook : trimmedLook scope e body with
    | error f' =>
      rw [hlook] at hf
      cases hf
      rfl
    | ok found =>
      rw [hlook] at hf
      cases found <;> cases hf

theorem resolveText_ok {record : Value} {s : String}
    (h : ∀ path ∈ (parse Dialect.step s).paths, (record.lookup path).Writable) (e : Escape)
    (missing : Option String) :
    ∃ out, resolveText (Scope.ofValue record) s e missing = .ok out := by
  cases hr : resolveText (Scope.ofValue record) s e missing with
  | ok out => exact ⟨out,rfl⟩
  | error f =>
    obtain ⟨path,hpath,hf⟩ := resolveText_error hr
    obtain ⟨text,htext⟩ := Value.asText_iff.2 (h path hpath)
    rw [Scope.textAt,Scope.find_ofValue] at hf
    change (if (record.lookup path).isNull then pure none else some <$> _) = _ at hf
    rw [htext] at hf
    split at hf <;> cases hf

theorem exists_hole (h : t.hasHole = true) : ∃ body written, .hole body written ∈ t := by
  obtain ⟨p,hp,hhole⟩ := List.any_eq_true.1 h
  cases p with
  | plain c => cases hhole
  | hole body written => exact ⟨body,written,hp⟩

theorem lookup_flattened (path text : String) :
    Value.lookup (.object [(String.ofList (Path.withoutMark path.toList),.text text)]) path =
      .text text := by
  simp [Value.lookup,Path.lookup,Path.wholeKey?,View.isNull,View.child?,View.isLeaf,Value.view,
    Value.layer,Entries.get?,Value.ofOption]

theorem length_le_flatten {α β : Type} {f : α → Except Fault (List β)} {xs : List α} {x : α}
    {part : List β} {parts : List (List β)} (h : xs.mapM f = .ok parts) (hx : x ∈ xs)
    (hpart : f x = .ok part) : part.length ≤ parts.flatten.length := by
  induction xs generalizing parts with
  | nil => cases hx
  | cons y rest ih =>
    rw [List.mapM_cons] at h
    obtain ⟨first,hfirst,h⟩ := eq_ok_of_bind h
    obtain ⟨others,hothers,h⟩ := eq_ok_of_bind h
    cases h
    rw [List.flatten_cons,List.length_append]
    rcases List.mem_cons.1 hx with rfl | hx
    · obtain rfl : part = first := Except.ok.inj (hpart.symm.trans hfirst)
      exact Nat.le_add_right _ _
    · exact (ih hothers hx).trans (Nat.le_add_left _ _)

/-- A template with a hole becomes another text where the hole is filled with a longer one. -/
theorem resolveText_ne {s : String} {body written : List Char}
    (h : .hole body written ∈ parse Dialect.step s) :
    ∃ es, resolveText (Scope.ofValue (.object es)) s id none ≠ .ok s := by
  let path := Text.trim (String.ofList body)
  let long := String.ofList (List.replicate (s.length + 1) '_')
  let es := [(String.ofList (Path.withoutMark path.toList),Value.text long)]
  refine ⟨es,fun hout => ?_⟩
  have hfilled : (Piece.hole body written).resolved (Scope.ofValue (.object es)) id none =
      .ok long.toList := by
    rw [Piece.resolved,Scope.find_ofValue,lookup_flattened]
    rfl
  rw [resolveText_eq] at hout
  cases htexts : (parse Dialect.step s).mapM
      (Piece.resolved (Scope.ofValue (.object es)) id none) with
  | error f =>
    rw [htexts] at hout
    cases hout
  | ok texts =>
    rw [htexts] at hout
    have hlength := congrArg String.length (Except.ok.inj hout)
    have hle := length_le_flatten htexts h hfilled
    simp [long] at hle
    simp at hlength
    omega

theorem resolve_same_iff (s : String) :
    (∀ es, resolve (Scope.ofValue (.object es)) (.text s) = .ok s) ↔ hasPlaceholders s = false := by
  change (∀ es, resolveText (Scope.ofValue (.object es)) s id none = .ok s) ↔
    (parse Dialect.step s).hasHole = false
  constructor
  · intro h
    refine Bool.eq_false_iff.2 fun hhole => ?_
    obtain ⟨body,written,hp⟩ := exists_hole hhole
    obtain ⟨es,hes⟩ := resolveText_ne hp
    exact hes (h es)
  · intro h es
    have hcut := cut_scan Dialect.unambiguous_step s.toList
    rw [resolveText,run,fill_plain h]
    change Except.ok (String.ofList (text (scan Dialect.step 0 s.toList))) = _
    rw [hcut.text_eq,String.ofList_toList]

/-- A template is cut into pieces in one way only, and what it is resolved to is what these pieces
are resolved to, in their order: nothing that was put into a hole is looked at again. So contexts
that agree on the paths of the holes give the same text, there is a text where all their values can
be written, and the template comes out as it went in, in every context, exactly if it has no
holes. -/
theorem resolveText_pass (s : String) : ∃ t : Template,
    (∀ t', Cut Dialect.step s.toList t' ↔ t' = t) ∧
    (∀ scope e missing, resolveText scope s e missing =
      (fun texts => String.ofList texts.flatten) <$> t.mapM (Piece.resolved scope e missing)) ∧
    (∀ scope scope' e missing, (∀ path ∈ t.paths, scope.find path = scope'.find path) →
      resolveText scope s e missing = resolveText scope' s e missing) ∧
    (∀ record e missing, (∀ path ∈ t.paths, (record.lookup path).Writable) →
      ∃ out, resolveText (Scope.ofValue record) s e missing = .ok out) ∧
    ((∀ es, resolve (Scope.ofValue (.object es)) (.text s) = .ok s) ↔
      hasPlaceholders s = false) :=
  ⟨parse Dialect.step s,fun _ => cut_iff Dialect.unambiguous_step,
    fun scope e missing => resolveText_eq scope s e missing,
    fun _ _ e missing h => resolveText_congr h e missing,
    fun _ e missing h => resolveText_ok h e missing,resolve_same_iff s⟩

end Template

end StepGraph
