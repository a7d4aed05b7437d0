import Mathlib.Data.List.Forall2
import StepGraph.Proofs.Planted

/-!
Two ways to look at the same tree. Two views mirror each other when related values have the same
level and related parts; what a path finds through one of them it finds through the other one.
Containers mirror the trees that they stand for.
-/
namespace StepGraph

variable {α β γ δ : Type}

inductive Layer.Rel (R : α → β → Prop) : Layer α → Layer β → Prop
  | scalar (s : Scalar) : Rel R (.scalar s) (.scalar s)
  | list {xs : List α} {ys : List β} (items : List.Forall₂ R xs ys) : Rel R (.list xs) (.list ys)
  | object {es : Entries α} {fs : Entries β}
      (entries : List.Forall₂ (fun e f => e.1 = f.1 ∧ R e.2 f.2) es fs) :
      Rel R (.object es) (.object fs)

inductive Fault.Rel (R : α → β → Prop) : Except Fault α → Except Fault β → Prop
  | ok {x : α} {y : β} (h : R x y) : Rel R (.ok x) (.ok y)
  | error (f : Fault) : Rel R (.error f) (.error f)

namespace Fault.Rel

variable {R : α → β → Prop} {S : γ → δ → Prop}

theorem refl (r : Except Fault α) : Fault.Rel Eq r r := by
  cases r with
  | error f => exact .error f
  | ok x => exact .ok rfl

theorem eq {r r' : Except Fault α} (h : Fault.Rel Eq r r') : r = r' := by
  cases h with
  | ok h => rw [h]
  | error f => rfl

theorem bind {p : Except Fault α} {q : Except Fault β} {f : α → Except Fault γ}
    {g : β → Except Fault δ} (h : Fault.Rel R p q) (hf : ∀ x y, R x y → Fault.Rel S (f x) (g y)) :
    Fault.Rel S (p >>= f) (q >>= g) := by
  cases h with
  | ok h => exact hf _ _ h
  | error f => exact .error f

theorem mapM {f : α → Except Fault γ} {g : β → Except Fault δ}
    (hf : ∀ x y, R x y → Fault.Rel S (f x) (g y)) {xs : List α} {ys : List β}
    (h : List.Forall₂ R xs ys) : Fault.Rel (List.Forall₂ S) (xs.mapM f) (ys.mapM g) := by
  induction h with
  | nil => exact .ok .nil
  | cons hx _ ih =>
    rw [List.mapM_cons,List.mapM_cons]
    exact (hf _ _ hx).bind fun _ _ h => ih.bind fun _ _ hs => .ok (.cons h hs)

end Fault.Rel

theorem Fault.forall₂_of_mapM {f : α → Except Fault β} {xs : List α} {ys : List β}
    (h : xs.mapM f = .ok ys) : List.Forall₂ (fun x y => f x = .ok y) xs ys := by
  induction xs generalizing ys with
  | nil =>
    cases h
    exact .nil
  | cons x xs ih =>
    rw [List.mapM_cons] at h
    cases hx : f x with
    | error e =>
      rw [hx] at h
      cases h
    | ok y =>
      cases hs : xs.mapM f with
      | error e =>
        rw [hx,hs] at h
        cases h
      | ok zs =>
        rw [hx,hs] at h
        cases h
        exact .cons hx (ih hs)

theorem Forall₂.getElem? {R : α → β → Prop} {xs : List α} {ys : List β}
    (h : List.Forall₂ R xs ys) (i : Nat) : Option.Rel R xs[i]? ys[i]? := by
  induction h generalizing i with
  | nil => exact .none
  | cons hx _ ih =>
    cases i with
    | zero => exact .some hx
    | succ i => exact ih i

theorem Entries.get?_rel {R : α → β → Prop} {es : Entries α} {fs : Entries β}
    (h : List.Forall₂ (fun e f => e.1 = f.1 ∧ R e.2 f.2) es fs) (k : String) :
    Option.Rel R (es.get? k) (fs.get? k) := by
  induction h with
  | nil => exact .none
  | cons he _ ih =>
    obtain ⟨hname,hvalue⟩ := he
    rw [get?,get?,hname]
    split
    · exact .some hvalue
    · exact ih

/-- Related values have the same level with related parts. -/
structure View.Mirrors (a : View α) (b : View β) (R : α → β → Prop) : Prop where
  leaf : ∀ s, R (a.leaf s) (b.leaf s)
  layer : ∀ x y, R x y → Layer.Rel R (a.layer x) (b.layer y)

namespace View.Mirrors

variable {a : View α} {b : View β} {R : α → β → Prop} {x : α} {y : β}

theorem isNull (h : a.Mirrors b R) (hxy : R x y) : a.isNull x = b.isNull y := by
  unfold View.isNull
  have hl := h.layer x y hxy
  generalize a.layer x = l, b.layer y = m at hl
  cases hl with
  | scalar s => cases s <;> rfl
  | list items => rfl
  | object entries => rfl

theorem isLeaf (h : a.Mirrors b R) (hxy : R x y) : a.isLeaf x = b.isLeaf y := by
  unfold View.isLeaf
  have hl := h.layer x y hxy
  generalize a.layer x = l, b.layer y = m at hl
  cases hl with
  | scalar s => cases s <;> rfl
  | list items => rfl
  | object entries => rfl

theorem isObject (h : a.Mirrors b R) (hxy : R x y) : a.isObject x = b.isObject y := by
  unfold View.isObject
  have hl := h.layer x y hxy
  generalize a.layer x = l, b.layer y = m at hl
  cases hl <;> rfl

theorem truthy (h : a.Mirrors b R) (hxy : R x y) : a.truthy x = b.truthy y := by
  unfold View.truthy
  have hl := h.layer x y hxy
  generalize a.layer x = l, b.layer y = m at hl
  cases hl with
  | scalar s => rfl
  | list items => cases items <;> rfl
  | object entries => cases entries <;> rfl

theorem orElse (h : a.Mirrors b R) {x' : α} {y' : β} (hxy : R x y) (hxy' : R x' y') :
    R (a.orElse x x') (b.orElse y y') := by
  unfold View.orElse
  rw [h.truthy hxy]
  split
  · exact hxy
  · exact hxy'

theorem child? (h : a.Mirrors b R) (hxy : R x y) (k : String) :
    Option.Rel R (a.child? x k) (b.child? y k) := by
  unfold View.child?
  have hl := h.layer x y hxy
  generalize a.layer x = l, b.layer y = m at hl
  cases hl with
  | scalar s => exact .none
  | list items => exact .none
  | object entries => exact Entries.get?_rel entries k

theorem field (h : a.Mirrors b R) (hxy : R x y) (k : String) : R (a.field x k) (b.field y k) := by
  unfold View.field
  have hc := h.child? hxy k
  generalize a.child? x k = o, b.child? y k = p at hc
  cases hc with
  | some hc => exact hc
  | none => exact h.leaf .null

theorem member (h : a.Mirrors b R) (hxy : R x y) (k : String) :
    Fault.Rel R (a.member x k) (b.member y k) := by
  unfold View.member
  have hl := h.layer x y hxy
  generalize a.layer x = l, b.layer y = m at hl
  cases hl with
  | scalar s => exact .error _
  | list items => exact .error _
  | object entries =>
    refine .ok ?_
    have hc := Entries.get?_rel entries k
    revert hc
    generalize Entries.get? _ k = o, Entries.get? _ k = p
    intro hc
    cases hc with
    | some hc => exact hc
    | none => exact h.leaf .null

theorem leaves (h : a.Mirrors b R) (f : γ → Scalar) (cs : List γ) :
    List.Forall₂ R (cs.map fun c => a.leaf (f c)) (cs.map fun c => b.leaf (f c)) := by
  induction cs with
  | nil => exact .nil
  | cons c cs ih => exact .cons (h.leaf (f c)) ih

theorem parts (h : a.Mirrors b R) (hxy : R x y) :
    Fault.Rel (List.Forall₂ R) (a.parts x) (b.parts y) := by
  unfold View.parts
  have hl := h.layer x y hxy
  generalize a.layer x = l, b.layer y = m at hl
  cases hl with
  | scalar s =>
    cases s with
    | text t => exact .ok (h.leaves (fun c : Char => .text c.toString) _)
    | bytes b => exact .ok (h.leaves (fun n : UInt8 => .int n.toNat) _)
    | _ => exact .error _
  | list items => exact .ok items
  | object entries =>
    refine .ok ?_
    induction entries with
    | nil => exact .nil
    | cons he _ ih =>
      refine .cons ?_ ih
      simp only [he.1]
      exact h.leaf _

theorem optionalParts (h : a.Mirrors b R) (hxy : R x y) :
    Fault.Rel (List.Forall₂ R) (a.optionalParts x) (b.optionalParts y) := by
  unfold View.optionalParts
  rw [h.truthy hxy]
  split
  · exact h.parts hxy
  · exact .ok .nil

theorem itemAt (h : a.Mirrors b R) (hxy : R x y) (i : Option Int) :
    Option.Rel R (Path.itemAt a x i) (Path.itemAt b y i) := by
  unfold Path.itemAt
  cases i with
  | none => exact .none
  | some i =>
    simp only
    have hl := h.layer x y hxy
    generalize a.layer x = l, b.layer y = m at hl
    cases hl with
    | scalar s =>
      cases s with
      | text t =>
        simp only
        split
        · exact .none
        · cases t.toList[i.toNat]? with
          | none => exact .none
          | some c => exact .some (h.leaf _)
      | _ => exact .none
    | list items =>
      simp only
      split
      · exact .none
      · exact Forall₂.getElem? items i.toNat
    | object entries => exact Entries.get?_rel entries _

theorem step (h : a.Mirrors b R) (hxy : R x y) (s : Segment) :
    Option.Rel R (Path.step a x s) (Path.step b y s) := by
  cases s with
  | key name => exact h.child? hxy name
  | index i => exact h.itemAt hxy i
  | keyIndex name i =>
    change Option.Rel R ((a.child? x name).bind fun y => Path.itemAt a y i)
      ((b.child? y name).bind fun y => Path.itemAt b y i)
    have hc := h.child? hxy name
    generalize a.child? x name = o, b.child? y name = p at hc
    cases hc with
    | none => exact .none
    | some hc => exact h.itemAt hc i

theorem follow (h : a.Mirrors b R) (hxy : R x y) (ss : List Segment) :
    Option.Rel R (Path.follow a x ss) (Path.follow b y ss) := by
  induction ss generalizing x y with
  | nil => exact .some hxy
  | cons s rest ih =>
    unfold Path.follow
    have hc := h.step hxy s
    generalize Path.step a x s = o, Path.step b y s = p at hc
    cases hc with
    | none => exact .none
    | some hc =>
      simp only [h.isNull hc]
      split
      · exact .none
      · exact ih hc

theorem wholeKey? (h : a.Mirrors b R) (hxy : R x y) (cs : List Char) :
    Option.Rel R (Path.wholeKey? a x cs) (Path.wholeKey? b y cs) := by
  unfold Path.wholeKey?
  have hc := h.child? hxy (String.ofList cs)
  generalize a.child? x (String.ofList cs) = o, b.child? y (String.ofList cs) = p at hc
  cases hc with
  | none => exact .none
  | some hc =>
    simp only [h.isLeaf hc]
    split
    · exact .some hc
    · exact .none

theorem lookup (h : a.Mirrors b R) (hxy : R x y) (path : String) :
    Option.Rel R (Path.lookup a x path) (Path.lookup b y path) := by
  unfold Path.lookup
  rw [h.isNull hxy]
  split
  · exact .none
  · simp only
    have hc := h.wholeKey? hxy (Path.withoutMark path.toList)
    generalize Path.wholeKey? a x _ = o, Path.wholeKey? b y _ = p at hc
    cases hc with
    | none => exact h.follow hxy _
    | some hc => exact .some hc

end View.Mirrors

structure Access.Mirrors (a : Access α) (b : Access β) (R : α → β → Prop) : Prop
    extends View.Mirrors a.toView b.toView R where
  tree : ∀ x y, R x y → a.tree x = b.tree y

namespace Access.Mirrors

variable {a : Access α} {b : Access β} {R : α → β → Prop} {x : α} {y : β}

theorem scope (h : a.Mirrors b R) (hxy : R x y) : Scope.of a x = Scope.of b y := by
  refine congrArg Scope.mk (funext fun path => ?_)
  have hl := h.lookup hxy path
  generalize Path.lookup a.toView x path = o, Path.lookup b.toView y path = p at hl
  cases hl with
  | none => rfl
  | some hl => exact h.tree _ _ hl

end Access.Mirrors

namespace Store

variable {s : Store} {n : Nat} {i : Item} {v : Value}

theorem mapM_option_rel {f : α → Option β} {xs : List α} {ys : List β}
    (h : xs.mapM f = some ys) : List.Forall₂ (fun x y => f x = some y) xs ys := by
  induction xs generalizing ys with
  | nil =>
    cases h
    exact .nil
  | cons x xs ih =>
    simp only [List.mapM_cons,Option.bind_eq_bind,Option.bind_eq_some_iff,Option.pure_def,
      Option.some.injEq] at h
    obtain ⟨y,hy,zs,hzs,rfl⟩ := h
    exact .cons hy (ih hzs)

def Tells (s : Store) (i : Item) (v : Value) : Prop :=
  ∃ d ≤ s.cells.size + 1, s.readTo d i = some v

theorem Tells.read (h : s.Tells i v) : s.read i = .ok v := by
  obtain ⟨d,hd,hv⟩ := h
  have hr : s.read? i = some v := readTo_le hd hv
  rw [Store.read,hr]

theorem tells_mirrors (s : Store) : s.access.Mirrors Value.access s.Tells where
  leaf a := ⟨1,by omega,rfl⟩
  tree x v h := h.read
  layer x v h := by
    obtain ⟨d,hd,hv⟩ := h
    cases d with
    | zero => cases hv
    | succ d =>
      have hle : d ≤ s.cells.size + 1 := by omega
      unfold readTo at hv
      change Layer.Rel _ (s.layer x) v.layer
      cases hl : s.layer x with
      | scalar a =>
        rw [hl] at hv
        cases hv
        exact .scalar a
      | list xs =>
        rw [hl] at hv
        obtain ⟨ys,hys,rfl⟩ := Option.map_eq_some_iff.1 hv
        exact .list ((mapM_option_rel hys).imp fun x y h => ⟨d,hle,h⟩)
      | object es =>
        rw [hl] at hv
        obtain ⟨fs,hfs,rfl⟩ := Option.map_eq_some_iff.1 hv
        refine .object ((mapM_option_rel hfs).imp fun e f h => ?_)
        obtain ⟨w,hw,rfl⟩ := Option.map_eq_some_iff.1 h
        exact ⟨rfl,d,hle,hw⟩

theorem SpellsAll.forall₂ {xs : List Value} {is : List Item} (h : s.SpellsAll n xs is) :
    List.Forall₂ (fun i v => s.Spells n v i) is xs := by
  induction xs generalizing is with
  | nil =>
    cases h
    exact .nil
  | cons x xs ih =>
    cases h with
    | cons first rest => exact .cons first (ih rest)

theorem SpellsFields.forall₂ {es : List (String × Value)} {is : Entries Item}
    (h : s.SpellsFields n es is) :
    List.Forall₂ (fun e f => e.1 = f.1 ∧ s.Spells n f.2 e.2) is es := by
  induction es generalizing is with
  | nil =>
    cases h
    exact .nil
  | cons e es ih =>
    cases h with
    | cons first rest => exact .cons ⟨rfl,first⟩ (ih rest)

theorem spells_mirrors (s : Store) (n : Nat) :
    s.access.Mirrors Value.access fun i v => s.Spells n v i where
  leaf a := .leaf n a
  tree x v h := h.read
  layer x v h := by
    cases h with
    | leaf n a => exact .scalar a
    | list lt cell parts =>
      simp only [access,view,layer,cell,Cell.layer]
      exact .list (parts.mono (refl_of Grows s) (Nat.le_of_lt lt)).forall₂
    | object lt cell fields =>
      simp only [access,view,layer,cell,Cell.layer]
      exact .object (fields.mono (refl_of Grows s) (Nat.le_of_lt lt)).forall₂

end Store

end StepGraph
