import Mathlib.Data.List.Basic
import StepGraph.Http.Target
import StepGraph.Proofs.Placeholders

/-!
The variables of a request path. Configured texts are put in one after the other, and the path that
comes out is read once more for the variables of the context. Where no configured text makes a
variable, both are one pass over the path.
-/
namespace StepGraph

open Attempt

namespace Text

variable {old new rest : List Char}

theorem replaceFrom_drop (old new : List Char) (skip : Nat) (cs : List Char) :
    replaceFrom old new skip cs = replaceFrom old new 0 (cs.drop skip) := by
  induction cs generalizing skip with
  | nil => cases skip <;> rfl
  | cons c rest ih =>
    cases skip with
    | zero => rfl
    | succ n => exact ih n

theorem replaceFrom_self (h : old ≠ []) :
    replaceFrom old new 0 (old ++ rest) = new ++ replaceFrom old new 0 rest := by
  obtain ⟨c,more,rfl⟩ := List.exists_cons_of_ne_nil h
  rw [List.cons_append,replaceFrom,if_pos (by simp),replaceFrom_drop]
  simp

theorem replaceFrom_skip {front : List Char}
    (h : ∀ tail, tail <:+ front → tail ≠ [] → ¬old <+: tail ++ rest) :
    replaceFrom old new 0 (front ++ rest) = front ++ replaceFrom old new 0 rest := by
  induction front with
  | nil => rfl
  | cons c front ih =>
    have hc : ¬old.isPrefixOf (c :: (front ++ rest)) = true := fun hold =>
      h _ List.suffix_rfl (List.cons_ne_nil c front) (List.isPrefixOf_iff_prefix.1 hold)
    rw [List.cons_append,replaceFrom,if_neg hc,
      ih fun tail htail => h tail (htail.trans (List.suffix_cons c front))]
    rfl

theorem replace_eq {s old new : String} (h : old ≠ "") :
    replace s old new = String.ofList (replaceFrom old.toList new.toList 0 s.toList) := by
  rw [replace,if_neg]
  simpa using h

end Text

abbrev Template.Substitution := List Char → List Char → Option (List Char)

def Piece.substitute (σ : Template.Substitution) : Piece → Template
  | .plain c => [.plain c]
  | .hole body written => (σ body written).elim [.hole body written] Template.plainly

/-- Puts texts in the place of path variables, one after the other. -/
def Http.withVariables (texts : List (String × String)) (path : String) : String :=
  texts.foldl (fun path o => withVariable path o.1 o.2) path

theorem Http.withVariables_cons (o : String × String) (texts : List (String × String))
    (path : String) :
    withVariables (o :: texts) path = withVariables texts (withVariable path o.1 o.2) :=
  List.foldl_cons

namespace Template

def substitute (σ : Substitution) (t : Template) : Template := t.flatMap (Piece.substitute σ)

def Substitution.put (w value : List Char) : Substitution :=
  fun _ written => if written = w then some value else none

def Substitution.or (σ τ : Substitution) : Substitution :=
  fun body written => (σ body written).or (τ body written)

variable {d : Dialect} {t : Template} {cs : List Char} {σ τ : Substitution}

theorem text_plainly (cs : List Char) : text (plainly cs) = cs := by
  induction cs with
  | nil => rfl
  | cons c cs ih => exact congrArg (c :: ·) ih

theorem text_append (t u : Template) : text (t ++ u) = text t ++ text u := List.flatMap_append

theorem substitute_plainly (σ : Substitution) (cs : List Char) :
    substitute σ (plainly cs) = plainly cs := by
  induction cs with
  | nil => rfl
  | cons c cs ih => exact congrArg (.plain c :: ·) ih

theorem substitute_congr (h : ∀ body written, .hole body written ∈ t →
    σ body written = τ body written) : substitute σ t = substitute τ t := by
  refine List.flatMap_congr fun p hp => ?_
  cases p with
  | plain c => rfl
  | hole body written => rw [Piece.substitute,Piece.substitute,h body written hp]

theorem substitute_none (h : ∀ body written, .hole body written ∈ t → σ body written = none) :
    substitute σ t = t := by
  rw [substitute_congr (τ := fun _ _ => none) h]
  induction t with
  | nil => rfl
  | cons p t ih =>
    have hrest := ih fun body written hp => h body written (List.mem_cons_of_mem p hp)
    cases p <;> exact congrArg (_ :: ·) hrest

theorem substitute_substitute (σ τ : Substitution) (t : Template) :
    substitute τ (substitute σ t) = substitute (σ.or τ) t := by
  rw [substitute,substitute,List.flatMap_assoc]
  refine List.flatMap_congr fun p _ => ?_
  cases p with
  | plain c => rfl
  | hole body written =>
    rw [Piece.substitute,Piece.substitute,Substitution.or]
    cases σ body written with
    | none => exact List.flatMap_singleton _ _
    | some value => exact substitute_plainly τ value

theorem hole_mem_substitute {body written : List Char} :
    .hole body written ∈ substitute σ t ↔ .hole body written ∈ t ∧ σ body written = none := by
  rw [substitute,List.mem_flatMap]
  constructor
  · rintro ⟨p,hp,hmem⟩
    cases p with
    | plain c => simp [Piece.substitute] at hmem
    | hole body' written' =>
      rw [Piece.substitute] at hmem
      cases hσ : σ body' written' with
      | none =>
        rw [hσ] at hmem
        obtain ⟨rfl,rfl⟩ : body = body' ∧ written = written' := by simpa using hmem
        exact ⟨hp,hσ⟩
      | some value =>
        rw [hσ] at hmem
        simp [plainly] at hmem
  · rintro ⟨hp,hσ⟩
    refine ⟨_,hp,?_⟩
    rw [Piece.substitute,hσ]
    exact List.mem_singleton_self _

theorem Cut.hole_mem {body written : List Char} (h : Cut d cs t) (hp : .hole body written ∈ t) :
    ∃ m ∈ d, Marks.IsBody body ∧ written = m.around body := by
  induction h with
  | nil => cases hp
  | hole hm hb _ ih =>
    rcases List.mem_cons.1 hp with heq | hp
    · cases heq
      exact ⟨_,hm,hb,rfl⟩
    · exact ih hp
  | plain _ _ ih =>
    rcases List.mem_cons.1 hp with heq | hp
    · cases heq
    · exact ih hp

/-- Replacing a text that reads as a hole replaces the holes written so, unless one starts inside of
a hole that is written in another way. -/
theorem Cut.replaceFrom {m : Marks} {name : List Char} (value : List Char) (h : Cut d cs t)
    (hm : m ∈ d) (hname : Marks.IsBody name)
    (hinside : ∀ body written, .hole body written ∈ t → ∀ tail rest, tail <:+ written → tail ≠ [] →
      m.around name <+: tail ++ rest → written = m.around name) :
    Text.replaceFrom (m.around name) value 0 cs =
      (substitute (.put (m.around name) value) t).text := by
  induction h with
  | nil => rfl
  | @hole m' body rest t hm' hb _ ih =>
    have hrest := ih fun body written hp => hinside body written (List.mem_cons_of_mem _ hp)
    change _ = text (Piece.substitute _ _ ++ substitute _ t)
    rw [Piece.substitute,Substitution.put]
    by_cases hw : m'.around body = m.around name
    · rw [if_pos hw,hw,Text.replaceFrom_self (Marks.around_ne_nil hname),hrest]
      change _ = text (plainly value ++ substitute _ t)
      rw [text_append,text_plainly]
    · rw [if_neg hw,Text.replaceFrom_skip,hrest]
      · rfl
      · exact fun tail htail hne hold =>
          hw (hinside body _ List.mem_cons_self tail rest htail hne hold)
  | @plain c rest t hnone _ ih =>
    have hrest := ih fun body written hp => hinside body written (List.mem_cons_of_mem _ hp)
    have hskip : ∀ tail, tail <:+ [c] → tail ≠ [] → ¬m.around name <+: tail ++ rest := by
      intro tail htail hne hold
      rcases List.suffix_cons_iff.1 htail with rfl | hnil
      · exact hnone m hm name hname hold
      · exact hne (List.suffix_nil.1 hnil)
    change Text.replaceFrom _ _ 0 ([c] ++ rest) = [c] ++ _
    rw [Text.replaceFrom_skip hskip,hrest]
    rfl

theorem opens_iff {c : Char} {rest : List Char} :
    (∃ m ∈ Dialect.pathVariable, ∃ body, Marks.IsBody body ∧ m.around body <+: c :: rest) ↔
      (c = '{' ∧ ∃ body, Marks.IsBody body ∧ body ++ ['}'] <+: rest) ∨
      (c = '$' ∧ ∃ body, Marks.IsBody body ∧ Dialect.singleBrace.around body <+: rest) := by
  simp only [Dialect.pathVariable,List.mem_cons,List.not_mem_nil,or_false,exists_eq_or_imp,
    exists_eq_left]
  simp [Marks.around,Dialect.singleBrace,Dialect.dollarBrace,eq_comm,and_left_comm]

theorem not_closed_iff {rest : List Char} :
    (¬∃ body, Marks.IsBody body ∧ body ++ ['}'] <+: rest) ↔
      '}' ∉ rest ∨ ∃ more, rest = '}' :: more := by
  constructor
  · intro h
    refine or_iff_not_imp_left.2 fun hmem => ?_
    obtain ⟨front,more,rfl,hfront⟩ := List.eq_append_cons_of_mem (not_not.1 hmem)
    cases front with
    | nil => exact ⟨more,rfl⟩
    | cons c front => exact absurd ⟨c :: front,⟨by simp,hfront⟩,more,by simp⟩ h
  · rintro h ⟨body,hb,more,rfl⟩
    rcases h with hmem | ⟨more',heq⟩
    · simp at hmem
    · obtain ⟨c,front,rfl⟩ := List.exists_cons_of_ne_nil hb.1
      obtain ⟨rfl,-⟩ := List.cons.inj heq
      exact hb.2 List.mem_cons_self

def MakesNoVariable (value : List Char) : Prop := '{' ∉ value ∧ value.getLast? ≠ some '$'

/-- What is put in makes no variable, and leaves no dollar sign in front of what follows a hole. -/
def Seamless (σ : Substitution) (t : Template) : Prop :=
  ∀ body written value, .hole body written ∈ t → σ body written = some value →
    MakesNoVariable value ∧ (value = [] → ¬[.plain '$',.hole body written] <:+: t)

theorem Seamless.tail {p : Piece} (h : Seamless σ (p :: t)) : Seamless σ t := by
  intro body written value hp hσ
  obtain ⟨hquiet,hgap⟩ := h body written value (List.mem_cons_of_mem p hp) hσ
  exact ⟨hquiet,fun hnil hwithin => hgap hnil (hwithin.trans (List.suffix_cons p t).isInfix)⟩

theorem Cut.makesNoVariable {value : List Char} (hv : MakesNoVariable value)
    (h : Cut Dialect.pathVariable cs t) :
    Cut Dialect.pathVariable (value ++ cs) (plainly value ++ t) := by
  induction value with
  | nil => exact h
  | cons c value ih =>
    obtain ⟨hopen,hlast⟩ := hv
    rw [List.mem_cons,not_or] at hopen
    have hrest : MakesNoVariable value := by
      refine ⟨hopen.2,fun hval => hlast ?_⟩
      rw [List.getLast?_cons,hval]
      rfl
    refine .plain (fun m hm body hb hstart => ?_) (ih hrest)
    rcases opens_iff.1 ⟨m,hm,body,hb,hstart⟩ with ⟨rfl,-⟩ | ⟨rfl,body,-,hbrace⟩
    · exact hopen.1 rfl
    · cases value with
      | nil => exact hlast rfl
      | cons c' value =>
        have hc : '{' = c' := (List.cons_prefix_cons.1 hbrace).1
        exact hopen.2 (hc ▸ List.mem_cons_self)

theorem Cut.hole_first {m : Marks} {body : List Char} (hd : d.Unambiguous) (h : Cut d cs t)
    (hm : m ∈ d)
    (hb : Marks.IsBody body) (hstart : m.around body <+: cs) :
    ∃ more, t = .hole body (m.around body) :: more := by
  cases h with
  | nil => exact absurd (List.prefix_nil.1 hstart) (Marks.around_ne_nil hb)
  | hole hm' hb' _ =>
    obtain ⟨rfl,rfl⟩ := hd.unique hm hm' hb hb' hstart (List.prefix_append _ _)
    exact ⟨_,rfl⟩
  | plain hnone _ => exact absurd hstart (hnone m hm body hb)

theorem Cut.plain_first {c : Char} (h : Cut Dialect.pathVariable (c :: cs) t) (hbrace : c ≠ '{')
    (hdollar : c ≠ '$') : ∃ more, t = .plain c :: more := by
  generalize htext : c :: cs = text at h
  cases h with
  | nil => cases htext
  | plain _ _ =>
    cases htext
    exact ⟨_,rfl⟩
  | @hole m body rest _ hm hb _ =>
    have hstart : m.around body <+: c :: cs := htext ▸ List.prefix_append _ _
    rcases opens_iff.1 ⟨m,hm,body,hb,hstart⟩ with ⟨hc,-⟩ | ⟨hc,-⟩
    · exact absurd hc hbrace
    · exact absurd hc hdollar

theorem Cut.brace_mem {body written : List Char} (h : Cut Dialect.pathVariable cs t)
    (hp : .hole body written ∈ t) : '}' ∈ cs := by
  obtain ⟨m,hm,-,rfl⟩ := h.hole_mem hp
  have hbrace : '}' ∈ m.around body := by
    obtain ⟨more,hmore⟩ := Dialect.unambiguous_pathVariable.closing m hm
    simp [Marks.around,hmore]
  rw [← h.text_eq]
  exact List.mem_flatMap.2 ⟨_,hp,hbrace⟩

theorem Seamless.hole_first {body written : List Char} {more : Template}
    (hσ : Seamless σ (.plain '$' :: t)) (h : substitute σ t = .hole body written :: more) :
    ∃ rest, t = .hole body written :: rest := by
  cases t with
  | nil => cases h
  | cons p t =>
    cases p with
    | plain c => cases h
    | hole body' written' =>
      change Piece.substitute σ (.hole body' written') ++ _ = _ at h
      rw [Piece.substitute] at h
      cases hbody : σ body' written' with
      | none =>
        rw [hbody] at h
        cases h
        exact ⟨t,rfl⟩
      | some value =>
        rw [hbody] at h
        cases value with
        | nil =>
          refine absurd ?_ ((hσ body' written' [] (by simp) hbody).2 rfl)
          exact (List.prefix_append [.plain '$',.hole body' written'] t).isInfix
        | cons c value => cases h

/-- A plain character does not become the start of a hole by what is put in behind it. -/
theorem Cut.plain_substitute {c : Char} (hσ : Seamless σ (.plain c :: t))
    (hnone : ∀ m ∈ Dialect.pathVariable, ∀ body, Marks.IsBody body → ¬m.around body <+: c :: cs)
    (h : Cut Dialect.pathVariable cs t)
    (hsub : Cut Dialect.pathVariable (substitute σ t).text (substitute σ t)) :
    ∀ m ∈ Dialect.pathVariable, ∀ body, Marks.IsBody body →
      ¬m.around body <+: c :: (substitute σ t).text := by
  have hclosed : ¬((c = '{' ∧ ∃ body, Marks.IsBody body ∧ body ++ ['}'] <+: cs) ∨
      (c = '$' ∧ ∃ body, Marks.IsBody body ∧ Dialect.singleBrace.around body <+: cs)) := by
    rw [← opens_iff]
    rintro ⟨m,hm,body,hb,hstart⟩
    exact hnone m hm body hb hstart
  obtain ⟨hbrace,hdollar⟩ := not_or.1 hclosed
  intro m hm body hb hstart
  rcases opens_iff.1 ⟨m,hm,body,hb,hstart⟩ with ⟨rfl,hopen⟩ | ⟨rfl,body,hb,hopen⟩
  · have hafter : ¬∃ body, Marks.IsBody body ∧ body ++ ['}'] <+: cs := fun hbody =>
      hbrace ⟨rfl,hbody⟩
    refine not_closed_iff.2 ?_ hopen
    rcases not_closed_iff.1 hafter with hmem | ⟨more,rfl⟩
    · have hplain : substitute σ t = t :=
        substitute_none fun body written hp => absurd (h.brace_mem hp) hmem
      rw [hplain,h.text_eq]
      exact .inl hmem
    · obtain ⟨t,rfl⟩ := h.plain_first (by decide) (by decide)
      exact .inr ⟨_,rfl⟩
  · obtain ⟨more,hmore⟩ :=
      hsub.hole_first Dialect.unambiguous_pathVariable List.mem_cons_self hb hopen
    obtain ⟨rest,rfl⟩ := hσ.hole_first hmore
    rw [← h.text_eq] at hdollar
    exact hdollar ⟨rfl,body,hb,List.prefix_append _ _⟩

theorem Cut.substitute (h : Cut Dialect.pathVariable cs t) (hσ : Seamless σ t) :
    Cut Dialect.pathVariable (substitute σ t).text (substitute σ t) := by
  induction h with
  | nil => exact .nil
  | @hole m body rest t hm hb _ ih =>
    have hrest := ih hσ.tail
    have hsplit : Template.substitute σ (.hole body (m.around body) :: t) =
        (σ body (m.around body)).elim [.hole body (m.around body)] plainly ++
          Template.substitute σ t := rfl
    rw [hsplit,text_append]
    cases hbody : σ body (m.around body) with
    | none =>
      have hkept : text [.hole body (m.around body)] = m.around body := List.append_nil _
      change Cut _ (text [_] ++ _) _
      rw [hkept]
      exact .hole hm hb hrest
    | some value =>
      change Cut _ (text (plainly value) ++ _) (plainly value ++ _)
      rw [text_plainly]
      exact hrest.makesNoVariable (hσ body _ value List.mem_cons_self hbody).1
  | @plain c rest t hnone hrest ih =>
    have hsub := ih hσ.tail
    exact .plain (Cut.plain_substitute hσ hnone hrest hsub) hsub

def Substitution.named (texts : List (String × String)) : Substitution :=
  fun body _ => (texts.lookup (String.ofList body)).map String.toList

/-- A name and its text that do not interfere with a path: a hole can have the name and no hole's
name ends in it behind a brace, and where a hole has it the text makes no variable and does not
bring a dollar sign in front of what follows. -/
structure NoInterference (t : Template) (name text : String) : Prop where
  isBody : Marks.IsBody name.toList
  nested : ∀ body written, .hole body written ∈ t → ¬ '{' :: name.toList <:+ body
  makesNoVariable : ∀ written, .hole name.toList written ∈ t → MakesNoVariable text.toList
  gap : text = "" → ∀ written, ¬[.plain '$',.hole name.toList written] <:+: t

variable {name text : String}

theorem named_single (name text : String) (body written : List Char) :
    Substitution.named [(name,text)] body written =
      if body = name.toList then some text.toList else none := by
  have hname : body = name.toList ↔ String.ofList body = name :=
    ⟨fun h => h ▸ String.ofList_toList,fun h => h ▸ String.toList_ofList.symm⟩
  by_cases h : String.ofList body = name
  · simp [Substitution.named,h,hname]
  · simp [Substitution.named,List.lookup_cons,beq_false_of_ne h,h,hname]

theorem named_cons (o : String × String) (texts : List (String × String)) :
    Substitution.named (o :: texts) =
      (Substitution.named [o]).or (Substitution.named texts) := by
  funext body written
  rw [Substitution.or,Substitution.named,Substitution.named,Substitution.named,List.lookup_cons,
    List.lookup_cons]
  split <;> rfl

theorem Seamless.or (hσ : Seamless σ t) (hτ : Seamless τ t) : Seamless (σ.or τ) t := by
  intro body written value hp h
  rw [Substitution.or,Option.or_eq_some_iff] at h
  rcases h with h | ⟨-,h⟩
  · exact hσ body written value hp h
  · exact hτ body written value hp h

theorem NoInterference.seamless (h : NoInterference t name text) :
    Seamless (.named [(name,text)]) t := by
  intro body written value hp hvalue
  rw [named_single,Option.ite_none_right_eq_some] at hvalue
  obtain ⟨rfl,hvalue⟩ := hvalue
  cases hvalue
  exact ⟨h.makesNoVariable written hp,fun hnil => h.gap (String.toList_eq_nil_iff.1 hnil) written⟩

theorem around_inj {m m' : Marks} {body body' : List Char} (hm : m ∈ Dialect.pathVariable)
    (hm' : m' ∈ Dialect.pathVariable) (hb : Marks.IsBody body) (hb' : Marks.IsBody body')
    (h : m.around body = m'.around body') : m = m' ∧ body = body' :=
  Dialect.unambiguous_pathVariable.unique hm hm' hb hb' List.prefix_rfl (h ▸ List.prefix_rfl)

/-- Where the text of a variable ends another one, that is the variable itself, or it is in its
name, or it lacks only the dollar sign. -/
theorem around_suffix {m m' : Marks} {name body tail rest : List Char}
    (hm : m ∈ Dialect.pathVariable) (hm' : m' ∈ Dialect.pathVariable) (hname : Marks.IsBody name)
    (hbody : Marks.IsBody body) (htail : tail <:+ m'.around body) (hne : tail ≠ [])
    (hw : m.around name <+: tail ++ rest) :
    m'.around body = m.around name ∨ '{' :: name <:+ body ∨
      (m = Dialect.singleBrace ∧ m'.around body = Dialect.dollarBrace.around name) := by
  have hclosing : ∀ m ∈ Dialect.pathVariable, m.closing = ['}'] ∧ '}' ∉ m.opening := by
    simp [Dialect.pathVariable,Dialect.singleBrace,Dialect.dollarBrace]
  -- both texts end at their only closing brace, so what stands before it ends alike
  have hend : m.opening ++ name <:+ m'.opening ++ body := by
    rw [Marks.around,(hclosing m' hm').1,← List.append_assoc,List.suffix_concat_iff] at htail
    obtain ⟨front,rfl,hfront⟩ := htail.resolve_left hne
    obtain ⟨more,hmore⟩ := hw
    have hcut : m.opening ++ name ++ '}' :: more = front ++ '}' :: rest := by
      simpa [Marks.around,(hclosing m hm).1] using hmore
    have hleft : '}' ∉ m.opening ++ name := by simp [(hclosing m hm).2,hname.2]
    have hright : '}' ∉ front := fun hmem => by
      have hall := hfront.subset hmem
      simp [(hclosing m' hm').2,hbody.2] at hall
    have hwhile := congrArg (List.takeWhile (· != '}')) hcut
    rw [Marks.takeWhile_body hleft,Marks.takeWhile_body hright] at hwhile
    exact hwhile ▸ hfront
  simp only [Dialect.pathVariable,List.mem_cons,List.not_mem_nil,or_false] at hm hm'
  rcases hm with rfl | rfl
  · rcases hm' with rfl | rfl
    · rcases List.suffix_cons_iff.1 hend with heq | hin
      · exact .inl (congrArg (· ++ ['}']) heq.symm)
      · exact .inr (.inl hin)
    · rcases List.suffix_cons_iff.1 hend with heq | hin
      · cases heq
      · rcases List.suffix_cons_iff.1 hin with heq | hin
        · obtain ⟨-,rfl⟩ := List.cons.inj heq
          exact .inr (.inr ⟨rfl,rfl⟩)
        · exact .inr (.inl hin)
  · have hbehind : '{' :: name <:+ '$' :: '{' :: name := List.suffix_cons _ _
    rcases hm' with rfl | rfl
    · rcases List.suffix_cons_iff.1 hend with heq | hin
      · cases heq
      · exact .inr (.inl (hbehind.trans hin))
    · rcases List.suffix_cons_iff.1 hend with heq | hin
      · exact .inl (congrArg (· ++ ['}']) heq.symm)
      · rcases List.suffix_cons_iff.1 hin with heq | hin
        · cases heq
        · exact .inr (.inl (hbehind.trans hin))

theorem Substitution.or_assoc (σ τ υ : Substitution) : (σ.or τ).or υ = σ.or (τ.or υ) := by
  funext body written
  exact Option.or_assoc

theorem put_spellings {body written : List Char} (hcut : Cut Dialect.pathVariable cs t)
    (hname : Marks.IsBody name.toList) (hp : .hole body written ∈ t) :
    ((Substitution.put (Dialect.dollarBrace.around name.toList) text.toList).or
      (.put (Dialect.singleBrace.around name.toList) text.toList)) body written =
        Substitution.named [(name,text)] body written := by
  obtain ⟨m,hm,hb,rfl⟩ := hcut.hole_mem hp
  rw [named_single,Substitution.or,Substitution.put,Substitution.put]
  by_cases heq : body = name.toList
  · subst heq
    rw [if_pos rfl]
    simp only [Dialect.pathVariable,List.mem_cons,List.not_mem_nil,or_false] at hm
    rcases hm with rfl | rfl
    · rw [if_neg (by simp [Marks.around,Dialect.singleBrace,Dialect.dollarBrace]),if_pos rfl]
      rfl
    · rw [if_pos rfl]
      rfl
  · have hne {m'} (hm' : m' ∈ Dialect.pathVariable) : m.around body ≠ m'.around name.toList :=
      fun h => heq (around_inj hm hm' hb hname h).2
    rw [if_neg heq,if_neg (hne (by simp [Dialect.pathVariable])),
      if_neg (hne (by simp [Dialect.pathVariable]))]
    rfl

theorem NoInterference.seamless_dollar (hcut : Cut Dialect.pathVariable cs t)
    (h : NoInterference t name text) :
    Seamless (.put (Dialect.dollarBrace.around name.toList) text.toList) t := by
  intro body written value hp hvalue
  refine h.seamless body written value hp ?_
  rw [← put_spellings hcut h.isBody hp,Substitution.or,hvalue]
  rfl

theorem replaceFrom_substitute {m : Marks} (hcut : Cut Dialect.pathVariable cs t)
    (hσ : Seamless σ t) (h : NoInterference t name text) (hm : m ∈ Dialect.pathVariable)
    (hdollar : m = Dialect.singleBrace → ∀ body,
      .hole body (Dialect.dollarBrace.around name.toList) ∈ t →
        σ body (Dialect.dollarBrace.around name.toList) ≠ none) :
    Text.replaceFrom (m.around name.toList) text.toList 0 (substitute σ t).text =
      (substitute (σ.or (.put (m.around name.toList) text.toList)) t).text := by
  rw [← substitute_substitute]
  refine (hcut.substitute hσ).replaceFrom _ hm h.isBody ?_
  intro body written hp tail rest htail hne hw
  obtain ⟨hp,hnone⟩ := hole_mem_substitute.1 hp
  obtain ⟨m',hm',hb,rfl⟩ := hcut.hole_mem hp
  rcases around_suffix hm hm' h.isBody hb htail hne hw with heq | hin | ⟨hkind,heq⟩
  · exact heq
  · exact absurd hin (h.nested body _ hp)
  · rw [heq] at hp hnone
    exact absurd hnone (hdollar hkind body hp)

theorem withVariable_substitute (hcut : Cut Dialect.pathVariable cs t) (hσ : Seamless σ t)
    (h : NoInterference t name text) :
    Http.withVariable (String.ofList (substitute σ t).text) name text =
      String.ofList (substitute (σ.or (.named [(name,text)])) t).text := by
  let dollar := Dialect.dollarBrace.around name.toList
  let single := Dialect.singleBrace.around name.toList
  have hfirst : Text.replaceFrom dollar text.toList 0 (substitute σ t).text =
      (substitute (σ.or (.put dollar text.toList)) t).text :=
    replaceFrom_substitute hcut hσ h (by simp [Dialect.pathVariable]) fun hkind => nomatch hkind
  have hsecond : Text.replaceFrom single text.toList 0
      (substitute (σ.or (.put dollar text.toList)) t).text =
      (substitute ((σ.or (.put dollar text.toList)).or (.put single text.toList)) t).text := by
    refine replaceFrom_substitute hcut (hσ.or (h.seamless_dollar hcut)) h List.mem_cons_self ?_
    intro _ body _ hnone
    rw [Substitution.or,Option.or_eq_none_iff,Substitution.put,if_pos rfl] at hnone
    cases hnone.2
  have hboth : substitute ((σ.or (.put dollar text.toList)).or (.put single text.toList)) t =
      substitute (σ.or (.named [(name,text)])) t := by
    rw [Substitution.or_assoc]
    exact substitute_congr fun body written hp =>
      congrArg ((σ body written).or ·) (put_spellings hcut h.isBody hp)
  have hdollarName : ("$\x7b" ++ name ++ "\x7d").toList = dollar := by
    simp [dollar,Marks.around,Dialect.dollarBrace]
  have hsingleName : ("\x7b" ++ name ++ "\x7d").toList = single := by
    simp [single,Marks.around,Dialect.singleBrace]
  rw [Http.withVariable,Text.replace_eq (by simp [String.append_eq_empty_iff]),
    Text.replace_eq (by simp [String.append_eq_empty_iff]),hdollarName,hsingleName,
    String.toList_ofList,String.toList_ofList,hfirst,hsecond,hboth]

theorem withVariables_substitute (hcut : Cut Dialect.pathVariable cs t)
    (texts : List (String × String)) (hσ : Seamless σ t) (h : ∀ o ∈ texts, NoInterference t o.1 o.2) :
    Http.withVariables texts (String.ofList (substitute σ t).text) =
      String.ofList (substitute (σ.or (.named texts)) t).text := by
  induction texts generalizing σ with
  | nil =>
    have hnone : σ.or (.named []) = σ := by
      funext body written
      exact Option.or_none
    rw [hnone]
    rfl
  | cons o texts ih =>
    obtain ⟨ho,hrest⟩ := List.forall_mem_cons.1 h
    rw [named_cons o texts,← Substitution.or_assoc,← ih (hσ.or ho.seamless) hrest,
      ← withVariable_substitute hcut hσ ho,Http.withVariables_cons]

theorem Seamless.of_forall {texts : List (String × String)}
    (h : ∀ o ∈ texts, NoInterference t o.1 o.2) : Seamless (.named texts) t := by
  induction texts with
  | nil =>
    intro body written value _ hvalue
    cases hvalue
  | cons o texts ih =>
    obtain ⟨ho,hrest⟩ := List.forall_mem_cons.1 h
    rw [named_cons]
    exact ho.seamless.or (ih hrest)

theorem fill_plainly (look : List Char → Except Fault (Option String)) (missing : Option String)
    (cs : List Char) (t : Template) :
    fill look missing (plainly cs ++ t) = (cs ++ ·) <$> fill look missing t := by
  induction cs with
  | nil =>
    change fill look missing t = _
    cases fill look missing t <;> rfl
  | cons c cs ih =>
    change (c :: ·) <$> fill look missing (plainly cs ++ t) = _
    rw [ih]
    cases fill look missing t <;> rfl

theorem fill_named (texts : List (String × String))
    (look : List Char → Except Fault (Option String)) (missing : Option String) (t : Template) :
    fill look missing (substitute (.named texts) t) =
      fill (fun body => (texts.lookup (String.ofList body)).elim (look body) fun text =>
        .ok (some text)) missing t := by
  induction t with
  | nil => rfl
  | cons p t ih =>
    cases p with
    | plain c => exact congrArg ((c :: ·) <$> ·) ih
    | hole body written =>
      have hsplit : substitute (.named texts) (.hole body written :: t) =
          (Substitution.named texts body written).elim [.hole body written] plainly ++
            substitute (.named texts) t := rfl
      rw [hsplit,Substitution.named,fill]
      cases texts.lookup (String.ofList body) with
      | none =>
        change fill look missing (.hole body written :: substitute (.named texts) t) = _
        rw [fill,ih]
        rfl
      | some text =>
        change fill look missing (plainly text.toList ++ _) = _
        rw [fill_plainly,ih]
        rfl

end Template

namespace Http

open Template

def configuredText (scope : Scope) (e : String × Value) : Except Fault (String × String) := do
  return (e.1,← Template.resolve scope ((e.2.field "value").orElse (.text "")))

def configured (scope : Scope) (es : Entries Value) : Except Fault (List (String × String)) :=
  (es.filter fun e => isEnabled e.2).mapM (configuredText scope)

/-- What a variable stands for: a configured text, else the text of the context. -/
def overriding (scope : Scope) (texts : List (String × String)) (body : List Char) :
    Except Fault (Option String) :=
  (texts.lookup (String.ofList body)).elim (exactLook scope id body) fun text => .ok (some text)

/-- One pass over a path in which configured texts come before those of the context. -/
def onePass (scope : Scope) (texts : List (String × String)) (path : String) :
    Except Fault String :=
  run Dialect.pathVariable (overriding scope texts) none path

variable {config : Value} {scope : Scope} {path : String} {es : Entries Value}

theorem foldlM_setVariable (scope : Scope) (path : String) (es : Entries Value) :
    es.foldlM (setVariable scope) (.text path) =
      (fun texts => .text (withVariables texts path)) <$> configured scope es := by
  induction es generalizing path with
  | nil => rfl
  | cons e es ih =>
    rw [List.foldlM_cons,configured,setVariable]
    cases he : isEnabled e.2 with
    | true =>
      rw [if_pos rfl,List.filter_cons,if_pos he,List.mapM_cons,configuredText]
      cases Template.resolve scope ((e.2.field "value").orElse (.text "")) with
      | error f => rfl
      | ok text =>
        change es.foldlM (setVariable scope) (.text (withVariable path e.1 text)) = _
        have hcons : (fun texts => Value.text (withVariables texts (withVariable path e.1 text))) =
            (fun texts => Value.text (withVariables texts path)) ∘ ((e.1,text) :: ·) :=
          funext fun texts => congrArg Value.text (withVariables_cons (e.1,text) texts path).symm
        rw [ih,configured,hcons]
        generalize (fun texts => Value.text (withVariables texts path)) = put
        cases (es.filter fun e => isEnabled e.2).mapM (configuredText scope) <;> rfl
    | false =>
      rw [if_neg Bool.false_ne_true,List.filter_cons,if_neg (Bool.eq_false_iff.1 he)]
      exact ih path

theorem endpointPath_eq (hpath : (config.field "apiPath").orElse (.text "") = .text path)
    (hes : settings config "pathVariableConfig" = .ok es) :
    endpointPath config scope =
      (configured scope es >>= fun texts => onePass scope [] (withVariables texts path)) := by
  rw [endpointPath,hes,hpath]
  change (es.foldlM (setVariable scope) (.text path) >>= fun _ => _ : Except Fault String) = _
  rw [foldlM_setVariable]
  cases configured scope es <;> rfl

/-- Texts that do not interfere with the path are put in as in one pass. -/
theorem onePass_withVariables {texts : List (String × String)}
    (h : ∀ o ∈ texts, NoInterference (parse Dialect.pathVariable path) o.1 o.2) :
    onePass scope [] (withVariables texts path) = onePass scope texts path := by
  have hcut := cut_scan Dialect.unambiguous_pathVariable path.toList
  let nothing : Substitution := fun _ _ => none
  have hnone : Seamless nothing (scan Dialect.pathVariable 0 path.toList) :=
    fun _ _ _ _ h => nomatch h
  have hput := withVariables_substitute hcut texts hnone h
  have hempty : substitute nothing (scan Dialect.pathVariable 0 path.toList) = _ :=
    substitute_none fun _ _ _ => rfl
  rw [hempty,hcut.text_eq,String.ofList_toList] at hput
  have hparse : parse Dialect.pathVariable (withVariables texts path) =
      substitute (.named texts) (parse Dialect.pathVariable path) := by
    rw [hput,parse,String.toList_ofList]
    exact (hcut.substitute (Seamless.of_forall h)).scan_eq Dialect.unambiguous_pathVariable
  rw [onePass,run,hparse,fill_named]
  rfl

theorem onePass_pieces (scope : Scope) (texts : List (String × String)) (path : String) :
    ∃ t : Template, (∀ t', Cut Dialect.pathVariable path.toList t' ↔ t' = t) ∧
      onePass scope texts path = (fun out => String.ofList out.flatten) <$>
        t.mapM (Piece.replaced (overriding scope texts) none) := by
  refine ⟨parse Dialect.pathVariable path,fun _ => cut_iff Dialect.unambiguous_pathVariable,?_⟩
  rw [onePass,run,fill_eq]
  cases (parse Dialect.pathVariable path).mapM (Piece.replaced (overriding scope texts) none) <;>
    rfl

/-- The texts of the context are put into an endpoint's path in one pass over what the path is when
the configured texts have been put in; and where no configured text interferes with the path, both
come from one pass over the path as it is configured, a configured text before one of the
context. -/
theorem endpointPath_pass (hpath : (config.field "apiPath").orElse (.text "") = .text path)
    (hes : settings config "pathVariableConfig" = .ok es) :
    (∀ texts path, ∃ t : Template, (∀ t', Cut Dialect.pathVariable path.toList t' ↔ t' = t) ∧
      onePass scope texts path = (fun out => String.ofList out.flatten) <$>
        t.mapM (Piece.replaced (overriding scope texts) none)) ∧
    (∀ f, configured scope es = .error f → endpointPath config scope = .error f) ∧
    (∀ texts, configured scope es = .ok texts →
      endpointPath config scope = onePass scope [] (withVariables texts path) ∧
      ((∀ o ∈ texts, NoInterference (parse Dialect.pathVariable path) o.1 o.2) →
        endpointPath config scope = onePass scope texts path)) := by
  refine ⟨onePass_pieces scope,fun f h => ?_,fun texts h => ?_⟩
  · rw [endpointPath_eq hpath hes,h]
    rfl
  · have hend : endpointPath config scope = onePass scope [] (withVariables texts path) := by
      rw [endpointPath_eq hpath hes,h]
      rfl
    exact ⟨hend,fun hsep => hend.trans (onePass_withVariables hsep)⟩

def pathConfig (path : String) (texts : List (String × String)) : Value :=
  .object [("apiPath",.text path),("pathVariableConfig",.object (texts.map fun o =>
    (o.1,.object [("enabled",.bool true),("value",.text o.2)])))]

def linePath : String := "/o/\x7bid\x7d/$\x7bb\x7d"

def lineScope : Scope := .ofValue (.object [("b",.text "x"),("no",.text "7")])

theorem endpointPath_pass_line :
    (∀ o ∈ [("id","7\x7d")], NoInterference (parse Dialect.pathVariable linePath) o.1 o.2) ∧
    endpointPath (pathConfig linePath [("id","\x7b\x7bno\x7d\x7d\x7d")]) lineScope =
      onePass lineScope [("id","7\x7d")] linePath ∧
    onePass lineScope [("id","7\x7d")] linePath = .ok "/o/7\x7d/x" := by
  have hsep : NoInterference (parse Dialect.pathVariable linePath) "id" "7\x7d" := by
    have hparse : parse Dialect.pathVariable linePath = plainly "/o/".toList ++
        [.hole ['i','d'] ['{','i','d','}'],.plain '/',.hole ['b'] ['$','{','b','}']] := by
      decide +kernel
    refine ⟨by simp [Marks.IsBody],fun body written h => ?_,
      fun _ _ => by simp [MakesNoVariable],nofun⟩
    rw [hparse] at h
    obtain ⟨rfl,-⟩ | ⟨rfl,-⟩ : body = ['i','d'] ∧ written = ['{','i','d','}'] ∨
        body = ['b'] ∧ written = ['$','{','b','}'] := by
      simpa [plainly] using h
    · decide
    · decide
  have hall : ∀ o ∈ [("id","7\x7d")], NoInterference (parse Dialect.pathVariable linePath) o.1 o.2 :=
    fun o ho => List.mem_singleton.1 ho ▸ hsep
  have htexts : configured lineScope [("id",.object [("enabled",.bool true),
      ("value",.text "\x7b\x7bno\x7d\x7d\x7d")])] = .ok [("id","7\x7d")] := rfl
  exact ⟨hall,((endpointPath_pass rfl rfl).2.2 _ htexts).2 hall,rfl⟩

/-- Each way in which a configured text can interfere changes the path: a variable that it makes
alone or with what follows, a dollar sign that an empty one brings in front of what follows, a name
inside of another name, and a name that no hole can have. -/
theorem endpointPath_reread :
    (endpointPath (pathConfig "/\x7ba\x7d" [("a","\x7bb\x7d")]) lineScope = .ok "/x" ∧
      onePass lineScope [("a","\x7bb\x7d")] "/\x7ba\x7d" = .ok "/\x7bb\x7d") ∧
    (endpointPath (pathConfig "/\x7ba\x7d" [("a","\x7bb\x7d"),("b","y")]) lineScope = .ok "/y" ∧
      onePass lineScope [("a","\x7bb\x7d"),("b","y")] "/\x7ba\x7d" = .ok "/\x7bb\x7d") ∧
    (endpointPath (pathConfig "/\x7ba\x7d\x7bb\x7d" [("a","$")]) lineScope = .ok "/x" ∧
      onePass lineScope [("a","$")] "/\x7ba\x7d\x7bb\x7d" = .ok "/$x") ∧
    (endpointPath (pathConfig "/$$\x7ba\x7d\x7bb\x7d" [("a","")]) lineScope = .ok "/x" ∧
      onePass lineScope [("a","")] "/$$\x7ba\x7d\x7bb\x7d" = .ok "/$x") ∧
    (endpointPath (pathConfig "/\x7ba\x7bb\x7d" [("b","y")]) lineScope = .ok "/\x7bay" ∧
      onePass lineScope [("b","y")] "/\x7ba\x7bb\x7d" = .ok "/\x7ba\x7bb\x7d") ∧
    (endpointPath (pathConfig "/\x7bb\x7dc\x7d" [("b\x7dc","y")]) lineScope = .ok "/y" ∧
      onePass lineScope [("b\x7dc","y")] "/\x7bb\x7dc\x7d" = .ok "/xc\x7d") :=
  ⟨⟨rfl,rfl⟩,⟨rfl,rfl⟩,⟨rfl,rfl⟩,⟨rfl,rfl⟩,⟨rfl,rfl⟩,⟨rfl,rfl⟩⟩

end Http

end StepGraph
