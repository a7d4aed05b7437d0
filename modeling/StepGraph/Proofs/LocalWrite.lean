import StepGraph.Proofs.Retrace
import StepGraph.Proofs.Spots

/-!
A write at a path is local. It is refused before it changes anything, or it leads to one spot and
changes nothing beside it: containers on the way stay where they are, and new ones stand only where
there were none.
-/
namespace StepGraph

open Layer

def Spot.Padding (w a : Spot) : Prop := ∃ p m n q, w = p ++ .item n :: q ∧ a = p ++ [.item m] ∧ m < n

theorem Spot.Padding.cons {w a : Spot} (h : Padding w a) (b : Branch) : Padding (b :: w) (b :: a) := by
  obtain ⟨p,m,n,q,rfl,rfl,hlt⟩ := h
  exact ⟨b :: p,m,n,q,rfl,rfl,hlt⟩

/-- Figures among the parts of a path can be read. -/
def Path.FiguresReadable (parts : List String) : Prop :=
  ∀ part ∈ parts, Text.isFigures part = true → ∃ n, placeOf part = .ok n

namespace Text

theorem isDigit_of_ascii {c : Char} (h : isFigure c = true) (hc : c.toNat < 128) :
    isDigit c = true := by
  refine (Bool.or_eq_true_iff.1 h).resolve_right fun hf => ?_
  obtain ⟨r,hr,hrc⟩ := List.any_eq_true.1 hf
  have hfirst : figureRanges.all fun r => 128 ≤ r.1 := by decide
  have hle := List.all_eq_true.1 hfirst r hr
  simp only [Bool.and_eq_true,decide_eq_true_eq] at hrc hle
  omega

end Text

theorem Decimal.readWhole_digits {s : String} (h : Text.isFigures s = true)
    (hd : s.toList.all Text.isDigit = true) (hl : s.toList.length ≤ maxDigits) :
    readWhole s = .value (Text.digitsToNat s.toList) := by
  obtain ⟨hne,hall⟩ := Bool.and_eq_true_iff.1 h
  have hempty : s.toList.isEmpty = false := by simpa using hne
  unfold readWhole trimmedChars
  rw [Text.trim_eq_self (Text.not_isBlank_of_all hall),takeSign_figures hall]
  simp only [joinGroups_figures hall,hempty,hd,Bool.not_true,Bool.or_self,Bool.false_eq_true,
    if_false,if_neg (Nat.not_lt.2 hl)]

theorem mem_of_mem_splitAt {f : Char → Bool} {cs piece : List Char} {c : Char}
    (h : piece ∈ splitAt f cs) (hc : c ∈ piece) : c ∈ cs := by
  induction cs generalizing piece with
  | nil =>
    obtain rfl := List.mem_singleton.1 h
    cases hc
  | cons d rest ih =>
    rw [splitAt] at h
    split at h
    · rcases List.mem_cons.1 h with rfl | h
      · cases hc
      · exact .tail d (ih h hc)
    · split at h
      · obtain rfl := List.mem_singleton.1 h
        exact List.mem_cons.2 (.inl (List.mem_singleton.1 hc))
      · rename_i hsplit
        rcases List.mem_cons.1 h with rfl | h
        · rcases List.mem_cons.1 hc with rfl | hc
          · exact .head rest
          · exact .tail d (ih (hsplit ▸ .head _) hc)
        · exact .tail d (ih (hsplit ▸ .tail _ h) hc)

theorem Path.figuresReadable_places {path : String} (hascii : ∀ c ∈ path.toList, c.toNat < 128)
    (hfigures : ∀ part ∈ places path, Text.isFigures part = true →
      part.length ≤ Decimal.maxDigits) : FiguresReadable (places path) := by
  intro part hpart hf
  obtain ⟨piece,hpiece,rfl⟩ := List.mem_map.1 hpart
  have hall : (String.ofList piece).toList.all Text.isFigure = true :=
    (Bool.and_eq_true_iff.1 hf).2
  have hdigits : (String.ofList piece).toList.all Text.isDigit = true := by
    refine List.all_eq_true.2 fun c hc => ?_
    refine Text.isDigit_of_ascii (List.all_eq_true.1 hall c hc) (hascii c ?_)
    rw [String.toList_ofList] at hc
    exact mem_of_mem_splitAt (List.mem_filter.1 hpiece).1 hc
  have hread := Decimal.readWhole_digits hf hdigits (hfigures _ hpart hf)
  exact ⟨_,by simp only [placeOf,readWhole,hread]; rfl⟩

namespace Store

variable {s s' : Store} {i j x : Item} {parts : List String} {w : Spot}

def spot? (s : Store) : Item → List String → Option Spot
  | _, [] => some []
  | i, part :: rest => do
    let b ← (s.layer i).branch? part
    let j ← (s.layer i).part? b
    return b :: (← s.spot? j rest)

/-- A list that is there is asked for a place that no figures name. -/
def Stuck (s : Store) (i : Item) (parts : List String) : Prop :=
  ∃ pre part post j xs, parts = pre ++ part :: post ∧ s.Descends i pre j ∧ s.layer j = .list xs ∧
    Text.isFigures part = false

/-- A write of an item at the spot that a path leads to. -/
structure LocalWrite (s : Store) (i : Item) (parts : List String) (x : Item) (s' : Store)
    (w : Spot) : Prop where
  /-- The parts of the path lead to the written item. -/
  spelled : s'.spot? i parts = some w
  value : s'.view.at? i w = some x
  /-- One container of those that were there changes, and it stands on the way. -/
  changed : ∃ p id, p <+: w ∧ p ≠ w ∧ s.view.at? i p = some (.cell id) ∧
    ∀ k < s.cells.size, k ≠ id → s'.cells[k]? = s.cells[k]?
  /-- Neither on the way nor below the spot anything changes, up to the padding of lists. -/
  frame : ∀ a, ¬a <+: w → ¬w <+: a → s'.view.at? i a = s.view.at? i a ∨
    w.Padding a ∧ s.view.at? i a = none ∧ s'.view.at? i a = some .null
  /-- A container on the way stays where it is and changes at the branch of the way only. -/
  kept : ∀ p b q j, w = p ++ b :: q → s.view.at? i p = some j → s.isContainer j = true →
    s'.view.at? i p = some j ∧ ∃ y, s'.layer j = (s.layer j).set .null b y
  /-- Where there is none a new one is put, with nothing in it but the branch of the way. -/
  made : ∀ p b q, w = p ++ b :: q → (∀ j, s.view.at? i p = some j → s.isContainer j = false) →
    ∃ id y, s'.view.at? i p = some (.cell id) ∧ s.cells.size ≤ id ∧
      s'.layer (.cell id) = b.empty.set .null b y

variable {part next : String} {rest : List String} {b b' : Branch} {id : Nat} {y : Item} {a : Spot}

theorem branch?_or {l : Layer Item} (hl : l.isContainer = true)
    (hc : Text.isFigures part = true → ∃ n, placeOf part = .ok n) :
    (∃ b, l.branch? part = some b) ∨ ∃ xs, l = .list xs ∧ Text.isFigures part = false := by
  cases l with
  | scalar a => cases hl
  | object es => exact .inl ⟨_,rfl⟩
  | list xs =>
    cases hf : Text.isFigures part with
    | false => exact .inr ⟨xs,rfl,rfl⟩
    | true =>
      obtain ⟨n,hn⟩ := hc hf
      exact .inl ⟨.item n,by simp [branch?,hf,hn,Except.toOption]⟩

theorem writeAt_refused {xs : List Item} (hl : s.layer i = .list xs)
    (hf : Text.isFigures part = false) (rest : List String) (x : Item) :
    ∃ f, s.writeAt i (part :: rest) x = (s,some f) := by
  cases rest with
  | nil => exact ⟨.wrongKind,by simp [writeAt,assign,hl,Layer.assign,hf]⟩
  | cons next rest => exact ⟨.noSuchMember,by simp [writeAt,hl,child?,hf]⟩

theorem Stuck.refused (h : s.Stuck i parts) (x : Item) : ∃ f, s.writeAt i parts x = (s,some f) := by
  obtain ⟨pre,part,post,j,xs,rfl,hd,hl,hf⟩ := h
  rw [hd.writeAt_eq (List.cons_ne_nil _ _)]
  exact writeAt_refused hl hf post x

theorem Stuck.further (hj : (s.layer i).child? part = .ok (some j)) (hc : s.isContainer j = true)
    (h : s.Stuck j rest) : s.Stuck i (part :: rest) := by
  obtain ⟨pre,p,post,k,xs,rfl,hd,hl,hf⟩ := h
  exact ⟨part :: pre,p,post,k,xs,rfl,.further hj hc hd,hl,hf⟩

theorem stuck_here {xs : List Item} (hl : s.layer i = .list xs) (hf : Text.isFigures part = false)
    (rest : List String) : s.Stuck i (part :: rest) :=
  ⟨[],part,rest,i,xs,rfl,.here i,hl,hf⟩

theorem not_stuck_fresh (h : s.layer i = Layer.fresh next) : ¬s.Stuck i (next :: rest) := by
  rintro ⟨pre,part,post,j,xs,heq,hd,hl,hf⟩
  cases hd with
  | here i =>
    obtain ⟨rfl,-⟩ := List.cons.inj heq
    rw [h,Layer.fresh,if_neg (by simp [hf])] at hl
    cases hl
  | further hchild _ _ =>
    have hbelow := Layer.child?_below hchild
    rw [h,fresh_below] at hbelow
    cases hbelow

theorem frame_part {m : Nat} (hu : s.Unshared i)
    (hpart : (s'.layer i).part? b = (s.layer i).part? b)
    (hsame : ∀ k < s.cells.size, k ≠ m → s'.cells[k]? = s.cells[k]?)
    (hm : ∀ j, (s.layer i).part? b = some j → ∀ a, s.view.at? j a ≠ some (.cell m)) (a : Spot) :
    s'.view.at? i (b :: a) = s.view.at? i (b :: a) := by
  cases hold : (s.layer i).part? b with
  | none => exact (View.at?_cons_none (hpart.trans hold) a).trans (View.at?_cons_none hold a).symm
  | some j =>
    refine (View.at?_cons (hpart.trans hold) a).trans ?_
    rw [at?_frame (hu.part hold).lt hsame (hm j hold)]
    exact (View.at?_cons hold a).symm

theorem frame_beside (hu : s.Unshared (.cell id))
    (hl : s'.layer (.cell id) = (s.layer (.cell id)).set .null b y)
    (hsame : ∀ k < s.cells.size, k ≠ id → s'.cells[k]? = s.cells[k]?) (hne : b' ≠ b) (w a : Spot) :
    s'.view.at? (.cell id) (b' :: a) = s.view.at? (.cell id) (b' :: a) ∨
      Spot.Padding (b :: w) (b' :: a) ∧ s.view.at? (.cell id) (b' :: a) = none ∧
        s'.view.at? (.cell id) (b' :: a) = some .null := by
  rcases part?_set_ne hne (s.layer (.cell id)) .null y with
    hpart | ⟨m,n,rfl,rfl,hlt,hnone,hpad⟩
  · rw [← hl] at hpart
    exact .inl (frame_part hu hpart hsame (fun _ hj _ => hu.root_ne hj) a)
  · rw [← hl] at hpad
    have hold (a : Spot) : s.view.at? (.cell id) (.item m :: a) = none := View.at?_cons_none hnone a
    have hnew : s'.view.at? (.cell id) (.item m :: a) = s'.view.at? .null a :=
      View.at?_cons hpad a
    rw [hold,hnew]
    cases a with
    | nil => exact .inr ⟨⟨[],m,n,w,rfl,rfl,hlt⟩,rfl,rfl⟩
    | cons c a => exact .inl rfl

theorem at?_branch {j : Item} (hj : (s.layer i).part? b = some j) (a : Spot) :
    s.view.at? i (b :: a) = s.view.at? j a := View.at?_cons hj a

/-- Below a branch without a container there is nothing more. -/
theorem at?_beyond (hnone : ∀ j, (s.layer i).part? b = some j → s.isContainer j = false)
    (ha : a ≠ []) : s.view.at? i (b :: a) = none := by
  cases hj : (s.layer i).part? b with
  | none => exact View.at?_cons_none hj a
  | some j => exact (at?_branch hj a).trans (View.at?_of_not_container (hnone j hj) ha)

theorem LocalWrite.cons (hb : (s.layer i).branch? part = some b)
    (hl : s'.layer i = (s.layer i).set .null b j) (spelled : s'.spot? j rest = some w)
    (value : s'.view.at? j w = some x)
    (changed : ∃ p id, p <+: b :: w ∧ p ≠ b :: w ∧ s.view.at? i p = some (.cell id) ∧
      ∀ k < s.cells.size, k ≠ id → s'.cells[k]? = s.cells[k]?)
    (beside : ∀ b' ≠ b, ∀ a, s'.view.at? i (b' :: a) = s.view.at? i (b' :: a) ∨
      Spot.Padding (b :: w) (b' :: a) ∧ s.view.at? i (b' :: a) = none ∧
        s'.view.at? i (b' :: a) = some .null)
    (below : ∀ a, ¬a <+: w → ¬w <+: a → s'.view.at? j a = s.view.at? i (b :: a) ∨
      w.Padding a ∧ s.view.at? i (b :: a) = none ∧ s'.view.at? j a = some .null)
    (kept : ∀ p b₀ q k, w = p ++ b₀ :: q → s.view.at? i (b :: p) = some k →
      s.isContainer k = true → s'.view.at? j p = some k ∧
        ∃ y, s'.layer k = (s.layer k).set .null b₀ y)
    (made : ∀ p b₀ q, w = p ++ b₀ :: q →
      (∀ k, s.view.at? i (b :: p) = some k → s.isContainer k = false) →
      ∃ id y, s'.view.at? j p = some (.cell id) ∧ s.cells.size ≤ id ∧
        s'.layer (.cell id) = b₀.empty.set .null b₀ y) :
    LocalWrite s i (part :: rest) x s' (b :: w) := by
  have hpart : (s'.layer i).part? b = some j := by
    rw [hl]
    exact part?_set_self hb .null j
  have hbranch : (s'.layer i).branch? part = some b := by rw [hl,branch?_set,hb]
  refine ⟨?_,(at?_branch hpart w).trans value,changed,?_,?_,?_⟩
  · rw [spot?,hbranch,Option.bind_eq_bind,Option.bind_some,hpart,Option.bind_eq_bind,
      Option.bind_some,spelled]
    rfl
  -- a spot beside the written one parts from it at the first branch or further down
  · intro a hpre hext
    cases a with
    | nil => exact (hpre List.nil_prefix).elim
    | cons b' a =>
      by_cases hbb : b' = b
      · subst hbb
        rw [List.cons_prefix_cons] at hpre hext
        rw [at?_branch hpart]
        exact (below a (fun hp => hpre ⟨rfl,hp⟩) fun hw => hext ⟨rfl,hw⟩).imp_right
          fun ⟨hpad,hold,hnew⟩ => ⟨hpad.cons b',hold,hnew⟩
      · exact beside b' hbb a
  · intro p b₀ q k hw hk hc
    rcases Spot.split_cons hw with ⟨rfl,rfl,rfl⟩ | ⟨p',rfl,rfl⟩
    · cases hk
      exact ⟨rfl,j,hl⟩
    · rw [at?_branch hpart]
      exact kept p' b₀ q k rfl hk hc
  · intro p b₀ q hw hnone
    rcases Spot.split_cons hw with ⟨rfl,-,-⟩ | ⟨p',rfl,rfl⟩
    · have hroot : s.isContainer i = true := isContainer_of_branch? hb
      cases hroot.symm.trans (hnone i rfl)
    · rw [at?_branch hpart]
      exact made p' b₀ q rfl hnone

theorem LocalWrite.last (hu : s.Unshared (.cell id))
    (hb : (s.layer (.cell id)).branch? part = some b)
    (hl : s'.layer (.cell id) = (s.layer (.cell id)).set .null b x)
    (hsame : ∀ k < s.cells.size, k ≠ id → s'.cells[k]? = s.cells[k]?) :
    LocalWrite s (.cell id) [part] x s' [b] := by
  refine .cons hb hl rfl rfl ⟨[],id,List.nil_prefix,nofun,rfl,hsame⟩
    (fun b' hbb a => frame_beside hu hl hsame hbb [] a) ?_ ?_ ?_
  · exact fun a _ hext => (hext List.nil_prefix).elim
  · exact fun p b₀ q k hw => by simp at hw
  · exact fun p b₀ q hw => by simp at hw

theorem LocalWrite.further (hu : s.Unshared (.cell id))
    (hb : (s.layer (.cell id)).branch? part = some b)
    (hj : (s.layer (.cell id)).part? b = some j) (h : LocalWrite s j rest x s' w) :
    LocalWrite s (.cell id) (part :: rest) x s' (b :: w) := by
  obtain ⟨p,m,hp,hpw,hm,hsame⟩ := h.changed
  have hne : id ≠ m := fun he => hu.root_ne hj (he ▸ hm)
  have hl : s'.layer (.cell id) = s.layer (.cell id) :=
    layer_eq_of_cells (hsame id (hu.lt (a := []) rfl) hne)
  refine .cons hb (hl.trans (set_same hj .null).symm) h.spelled h.value ⟨b :: p,m,?_,?_,?_,hsame⟩
    (fun b' hbb a => .inl ?_) (fun a => ?_) (fun p b₀ q k hw hk => ?_) fun p b₀ q hw hk => ?_
  · exact List.cons_prefix_cons.2 ⟨rfl,hp⟩
  · exact fun he => hpw (List.cons.inj he).2
  · exact (at?_branch hj p).trans hm
  · exact frame_part hu (by rw [hl]) hsame (fun j' hj' a' ha => hbb (hu.apart hj' hj ha hm)) a
  · rw [at?_branch hj]
    exact h.frame a
  · rw [at?_branch hj] at hk
    exact h.kept p b₀ q k hw hk
  · refine h.made p b₀ q hw fun k hk' => hk k ((at?_branch hj p).trans hk')

theorem Puts.at?_new {s₁ : Store} (h : s.Puts i part next s₁) (ha : a ≠ []) :
    s₁.view.at? (.cell s.cells.size) a = none := by
  refine View.at?_of_below ?_ ha
  change (s₁.layer (.cell s.cells.size)).below = []
  rw [h.fresh,fresh_below]

theorem Puts.isContainer_new {s₁ : Store} (h : s.Puts i part next s₁) :
    s₁.isContainer (.cell s.cells.size) = true :=
  (congrArg Layer.isContainer h.fresh).trans (isContainer_fresh next)

theorem Puts.unshared_new {s₁ : Store} (h : s.Puts i part next s₁) :
    s₁.Unshared (.cell s.cells.size) where
  lt {a id} ha := by
    cases a with
    | nil =>
      cases ha
      rw [h.size]
      omega
    | cons b a =>
      rw [h.at?_new (List.cons_ne_nil b a)] at ha
      cases ha
  once {a a' id} ha ha' := by
    have root {a : Spot} (ha : s₁.view.at? (.cell s.cells.size) a = some (.cell id)) : a = [] := by
      by_contra hne
      rw [h.at?_new hne] at ha
      cases ha
    rw [root ha,root ha']

theorem fresh_eq_empty (h : (Layer.fresh next : Layer Item).branch? next = some b) :
    (Layer.fresh next : Layer Item) = b.empty := by
  by_cases hf : Text.isFigures next = true
  · rw [Layer.fresh,if_pos hf] at h ⊢
    obtain ⟨-,n,-,rfl⟩ := branch?_list h
    rfl
  · rw [Layer.fresh,if_neg hf] at h ⊢
    cases h
    rfl

theorem branch?_of_spot? (h : s.spot? i (part :: rest) = some (b :: w)) :
    (s.layer i).branch? part = some b := by
  obtain ⟨b',hb',h⟩ := Option.bind_eq_some_iff.1 h
  obtain ⟨j,-,h⟩ := Option.bind_eq_some_iff.1 h
  obtain ⟨w',-,h⟩ := Option.bind_eq_some_iff.1 h
  cases h
  exact hb'

theorem LocalWrite.anew {s₁ : Store} (hu : s.Unshared (.cell id))
    (hb : (s.layer (.cell id)).branch? part = some b)
    (hnone : ∀ j, (s.layer (.cell id)).part? b = some j → s.isContainer j = false)
    (hp : s.Puts (.cell id) part next s₁)
    (h : LocalWrite s₁ (.cell s.cells.size) (next :: rest) x s' w) :
    LocalWrite s (.cell id) (part :: next :: rest) x s' (b :: w) := by
  have hlt : id < s.cells.size := hu.lt (a := []) rfl
  -- Only the new container changes behind it, for there is no other below it.
  have hafter : ∀ k < s₁.cells.size, k ≠ s.cells.size → s'.cells[k]? = s₁.cells[k]? := by
    obtain ⟨p,m,-,-,hm,hsame⟩ := h.changed
    cases p with
    | nil =>
      cases hm
      exact hsame
    | cons c p =>
      rw [hp.at?_new (List.cons_ne_nil c p)] at hm
      cases hm
  have hsize : ∀ k < s.cells.size, k < s₁.cells.size := fun k hk => by
    rw [hp.size]
    omega
  have hsame : ∀ k < s.cells.size, k ≠ id → s'.cells[k]? = s.cells[k]? := fun k hk hne =>
    (hafter k (hsize k hk) (Nat.ne_of_lt hk)).trans
      (hp.same k hk fun he => hne (Item.cell.inj he).symm)
  have hl : s'.layer (.cell id) = (s.layer (.cell id)).set .null b (.cell s.cells.size) := by
    obtain ⟨b₁,hb₁,hl₁⟩ := assign_eq_ok.1 hp.put
    cases hb.symm.trans hb₁
    rw [← hl₁]
    exact layer_eq_of_cells (hafter id (hsize id hlt) (Nat.ne_of_lt hlt))
  refine .cons hb hl h.spelled h.value ⟨[],id,List.nil_prefix,nofun,rfl,hsame⟩
    (fun b' hbb a => frame_beside hu hl hsame hbb w a) (fun a hpre hext => ?_)
    (fun p b₀ q k hw hk hc => ?_) fun p b₀ q hw _ => ?_
  · have ha : a ≠ [] := by
      rintro rfl
      exact hpre List.nil_prefix
    rw [at?_beyond hnone ha]
    exact (h.frame a hpre hext).imp (fun he => he.trans (hp.at?_new ha)) fun hpad =>
      ⟨hpad.1,rfl,hpad.2.2⟩
  · cases p with
    | nil =>
      obtain ⟨j,hj,hjk⟩ := Option.bind_eq_some_iff.1 hk
      cases hjk
      cases hc.symm.trans (hnone _ hj)
    | cons c p =>
      rw [at?_beyond hnone (List.cons_ne_nil c p)] at hk
      cases hk
  · cases p with
    | nil =>
      subst hw
      obtain ⟨-,y,hy⟩ := h.kept [] b₀ q _ rfl rfl hp.isContainer_new
      have hbranch := branch?_of_spot? h.spelled
      rw [hy,branch?_set,hp.fresh] at hbranch
      rw [hp.fresh,fresh_eq_empty hbranch] at hy
      exact ⟨s.cells.size,y,rfl,Nat.le_refl _,hy⟩
    | cons c p =>
      obtain ⟨id',y,hat,hle,hl'⟩ := h.made (c :: p) b₀ q hw fun k hk => by
        rw [hp.at?_new (List.cons_ne_nil c p)] at hk
        cases hk
      exact ⟨id',y,hat,Nat.le_of_lt (by rw [hp.size] at hle; omega),hl'⟩

theorem assign_local (hu : s.Unshared (.cell id))
    (hb : (s.layer (.cell id)).branch? part = some b) (x : Item) :
    ∃ s', s.assign (.cell id) part x = (s',none) ∧ LocalWrite s (.cell id) [part] x s' [b] := by
  have hset : (s.layer (.cell id)).assign .null part x = .ok ((s.layer (.cell id)).set .null b x) :=
    assign_eq_ok.2 ⟨b,hb,rfl⟩
  rcases s.assign_cases (.cell id) part x with ⟨f,hf⟩ | ⟨k,s',hk,-,ha,hput,-,hsame⟩
  · simp only [assign,hset] at hf
    cases (Prod.mk.inj hf).2
  · cases hk
    rw [hset] at hput
    exact ⟨s',ha,.last hu hb (Except.ok.inj hput).symm fun k _ hk => hsame k hk⟩

theorem writeAt_local (parts : List String) (hne : parts ≠ []) (hc : Path.FiguresReadable parts)
    (hu : s.Unshared i) (hi : s.isContainer i = true) (x : Item) :
    (s.Stuck i parts ∧ ∃ f, s.writeAt i parts x = (s,some f)) ∨
    ∃ s' w, s.writeAt i parts x = (s',none) ∧ LocalWrite s i parts x s' w := by
  induction parts generalizing s i with
  | nil => exact (hne rfl).elim
  | cons part rest ih =>
    obtain ⟨hcpart,hcrest⟩ := List.forall_mem_cons.1 hc
    obtain ⟨id,rfl,-⟩ := cell_of_isContainer hi
    rcases branch?_or hi hcpart with ⟨b,hb⟩ | ⟨xs,hl,hf⟩
    swap
    · exact .inl ⟨stuck_here hl hf rest,writeAt_refused hl hf rest x⟩
    cases rest with
    | nil =>
      obtain ⟨s',ha,hlocal⟩ := assign_local hu hb x
      exact .inr ⟨s',[b],ha,hlocal⟩
    | cons next rest =>
      have hchild : (s.layer (.cell id)).child? part = .ok ((s.layer (.cell id)).part? b) :=
        child?_eq_ok.2 ⟨b,hb,rfl⟩
      rcases s.writeAt_cases (.cell id) part next rest x with
        ⟨f,hf,-⟩ | ⟨j,hj,hjc,hw⟩ | ⟨o,s₁,ho,hnone,hp,hw⟩
      · cases hchild.symm.trans hf
      · have hpart := Except.ok.inj (hchild.symm.trans hj)
        rw [hw]
        rcases ih (List.cons_ne_nil _ _) hcrest (hu.part hpart) hjc with
          ⟨hstuck,hf⟩ | ⟨s',w,hw',hlocal⟩
        · exact .inl ⟨hstuck.further hj hjc,hf⟩
        · exact .inr ⟨s',b :: w,hw',hlocal.further hu hb hpart⟩
      -- below a new container nothing can be stuck, so the write goes through
      · have hpart := Except.ok.inj (hchild.symm.trans ho)
        have hnone : ∀ j, (s.layer (.cell id)).part? b = some j → s.isContainer j = false := by
          intro j hj
          rw [← hpart,hj] at hnone
          exact Bool.eq_false_iff.2 fun hjc => by simp [Option.filter_some,hjc] at hnone
        rw [hw]
        rcases ih (List.cons_ne_nil _ _) hcrest hp.unshared_new hp.isContainer_new with
          ⟨hstuck,-⟩ | ⟨s',w,hw',hlocal⟩
        · exact (not_stuck_fresh hp.fresh hstuck).elim
        · exact .inr ⟨s',b :: w,hw',hlocal.anew hu hb hnone hp⟩

/-- A write at a path into a tree with an object at its root. It is refused exactly where a list
that is there is asked for a place which no figures name, and then nothing has changed. Otherwise it
gives the last part of the path and is local; without parts nothing is written. -/
theorem setPath_local {root : Item} {path : String} (hu : s.Unshared root)
    (hroot : s.isObject root = true) (hascii : ∀ c ∈ path.toList, c.toNat < 128)
    (hfigures : ∀ part ∈ Path.places path, Text.isFigures part = true →
      part.length ≤ Decimal.maxDigits) (x : Item) :
    (s.Stuck root (Path.places path) ∧ ∃ f, s.setPath root path x = (s,.error f)) ∨
    (¬s.Stuck root (Path.places path) ∧
      ∃ s', s.setPath root path x = (s',.ok (Path.places path).getLast?) ∧
        (Path.places path = [] → s' = s) ∧
        (Path.places path ≠ [] → ∃ w, LocalWrite s root (Path.places path) x s' w)) := by
  have hc := Path.figuresReadable_places hascii hfigures
  rw [setPath]
  generalize Path.places path = parts at hc
  by_cases hne : parts = []
  · subst hne
    refine .inr ⟨?_,s,rfl,fun _ => rfl,fun h => (h rfl).elim⟩
    rintro ⟨pre,part,post,j,xs,heq,-⟩
    simp at heq
  · rcases writeAt_local parts hne hc hu (isContainer_of_isObject hroot) x with
      ⟨hstuck,f,hf⟩ | ⟨s',w,hw,hlocal⟩
    · exact .inl ⟨hstuck,f,by simp only [hf]⟩
    · refine .inr ⟨fun hstuck => ?_,s',by simp only [hw],fun h => (hne h).elim,
        fun _ => ⟨w,hlocal⟩⟩
      obtain ⟨f,hf⟩ := hstuck.refused x
      cases hw.symm.trans hf

def slipTree : Value := .object [("rows",.list [.text "r"]),("total",.null)]

def slip : Store × Item := ({} : Store).plant slipTree

theorem setPath_local_slip :
    (∃ s' w, slip.1.setPath slip.2 "rows[2].sum" (.text "x") = (s',.ok (some "sum")) ∧
      LocalWrite slip.1 slip.2 ["rows","2","sum"] (.text "x") s' w) ∧
    ∃ f, slip.1.setPath slip.2 "rows.sum" (.text "x") = (slip.1,.error f) := by
  have hu : slip.1.Unshared slip.2 := unshared_plant {} slipTree
  have hplaces : Path.places "rows[2].sum" = ["rows","2","sum"] := by decide
  constructor
  · have hascii : ∀ c ∈ "rows[2].sum".toList, c.toNat < 128 := by simp
    rcases setPath_local hu rfl hascii (by decide) (.text "x") with ⟨-,f,hf⟩ | ⟨-,s',hs,-,hlocal⟩
    · cases congrArg Prod.snd hf
    · rw [hplaces] at hs hlocal
      obtain ⟨w,hw⟩ := hlocal (List.cons_ne_nil _ _)
      exact ⟨s',w,hs,hw⟩
  · have hascii : ∀ c ∈ "rows.sum".toList, c.toNat < 128 := by simp
    rcases setPath_local hu rfl hascii (by decide) (.text "x") with ⟨-,f,hf⟩ | ⟨-,s',hs,-⟩
    · exact ⟨f,hf⟩
    · cases congrArg Prod.snd hs

end Store

end StepGraph
