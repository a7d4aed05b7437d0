import Mathlib.Order.Defs.Unbundled
import StepGraph.Context

/-!
Which containers an item leads to. A `Region` is a set of identities that is closed under the parts
of its containers; what stands in a region is read the same in every store that agrees on it. A
store that only grows agrees on every region, and so does one that is written elsewhere.
-/
namespace StepGraph

def Layer.below {α : Type} : Layer α → List α
  | .scalar _ => []
  | .list xs => xs
  | .object es => es.map Prod.snd

/-- The leaves that looking into a value makes: null, a piece of text, a byte. -/
inductive Scalar.Made : Scalar → Prop
  | null : Made .null
  | text (t : String) : Made (.text t)
  | byte (n : UInt8) : Made (.int n.toNat)

/-- A set of values that has the leaves that are made by looking and, with a value, its parts. -/
structure View.Hereditary {α : Type} (v : View α) (T : α → Prop) : Prop where
  leaf : ∀ a : Scalar, a.Made → T (v.leaf a)
  below : ∀ x, T x → ∀ y ∈ (v.layer x).below, T y

theorem Entries.mem_of_get? {α : Type} {es : Entries α} {k : String} {x : α}
    (h : Entries.get? es k = some x) : (k,x) ∈ es := by
  induction es with
  | nil => cases h
  | cons e rest ih =>
    simp only [get?] at h
    split at h
    · rename_i hk
      cases h
      rw [hk]
      exact List.mem_cons_self
    · exact List.mem_cons_of_mem _ (ih h)

theorem Entries.get?_below {α : Type} {es : Entries α} {k : String} {x : α}
    (h : Entries.get? es k = some x) : x ∈ (Layer.object es).below :=
  List.mem_map_of_mem (mem_of_get? h)

namespace View.Hereditary

variable {α : Type} {v : View α} {T : α → Prop} {x y : α} {k : String}

theorem child? (h : v.Hereditary T) (hx : T x) (hy : v.child? x k = some y) : T y := by
  have hb := h.below x hx
  unfold View.child? at hy
  split at hy
  · rename_i es hl
    rw [hl] at hb
    exact hb y (Entries.get?_below hy)
  · cases hy

theorem field (h : v.Hereditary T) (hx : T x) (k : String) : T (v.field x k) := by
  unfold View.field
  cases hc : v.child? x k with
  | none => exact h.leaf .null .null
  | some y => exact h.child? hx hc

theorem leaves (h : v.Hereditary T) {β : Type} {f : β → Scalar} (hf : ∀ b, (f b).Made)
    (bs : List β) : ∀ y ∈ bs.map fun b => v.leaf (f b), T y := by
  intro y hy
  obtain ⟨b,-,rfl⟩ := List.mem_map.1 hy
  exact h.leaf (f b) (hf b)

theorem parts (h : v.Hereditary T) (hx : T x) {ys : List α} (hp : v.parts x = .ok ys) :
    ∀ y ∈ ys, T y := by
  have hb := h.below x hx
  unfold View.parts at hp
  split at hp
  · rename_i xs hl
    cases hp
    rw [hl] at hb
    exact hb
  · cases hp
    exact h.leaves (fun _ => .text _) _
  · cases hp
    exact h.leaves (fun _ => .text _) _
  · cases hp
    exact h.leaves .byte _
  · cases hp

theorem optionalParts (h : v.Hereditary T) (hx : T x) {ys : List α}
    (hp : v.optionalParts x = .ok ys) : ∀ y ∈ ys, T y := by
  unfold View.optionalParts at hp
  split at hp
  · exact h.parts hx hp
  · cases hp
    simp

end View.Hereditary

def Item.In (P : Nat → Prop) : Item → Prop
  | .leaf _ => True
  | .cell id => P id

theorem Item.In.mono {P Q : Nat → Prop} (h : ∀ id, P id → Q id) : ∀ {i : Item}, i.In P → i.In Q
  | .leaf _, _ => trivial
  | .cell id, hi => h id hi

theorem Item.In.ofOption {P : Nat → Prop} {o : Option Item} (h : ∀ i, o = some i → i.In P) :
    (Item.ofOption o).In P := by
  cases o with
  | none => trivial
  | some i => exact h i rfl

namespace Store

/-- A set of identities that stand in the store and lead to each other only. -/
structure Region (s : Store) (P : Nat → Prop) : Prop where
  bounded : ∀ id, P id → id < s.cells.size
  closed : ∀ id c, P id → s.cells[id]? = some c → ∀ i ∈ c.layer.below, i.In P

def Encloses (s : Store) (P : Nat → Prop) : Prop :=
  ∀ id c, P id → s.cells[id]? = some c → ∀ j ∈ c.layer.below, j.In P

def Agrees (P : Nat → Prop) (s s' : Store) : Prop := ∀ id, P id → s'.cells[id]? = s.cells[id]?

theorem Agrees.refl (P : Nat → Prop) (s : Store) : s.Agrees P s := fun _ _ => rfl

theorem Agrees.trans {P : Nat → Prop} {s s' s'' : Store} (h : s.Agrees P s')
    (h' : s'.Agrees P s'') : s.Agrees P s'' := fun id hid => (h' id hid).trans (h id hid)

def Grows (s s' : Store) : Prop :=
  ∀ (id : Nat) (c : Cell), s.cells[id]? = some c → s'.cells[id]? = some c

variable {P Q : Nat → Prop} {s s' : Store}

instance : IsPreorder Store Grows where
  refl _ := fun _ _ h => h
  trans _ _ _ h h' := fun id c hc => h' id c (h id c hc)

theorem region_of_leaves (h : ∀ c ∈ s.cells, ∀ i ∈ c.layer.below, i.In fun _ => False) :
    s.Region (· < s.cells.size) where
  bounded _ hid := hid
  closed _ _ _ hc i hi := (h _ (Array.mem_of_getElem? hc) i hi).mono fun _ hf => hf.elim

theorem Region.agrees (h : s.Region P) (hg : s.Grows s') : s.Agrees P s' := by
  intro id hid
  have hc := Array.getElem?_eq_getElem (h.bounded id hid)
  rw [hc,hg id _ hc]

theorem Region.of_agrees (h : s.Region P) (ha : s.Agrees P s') : s'.Region P where
  bounded id hid := by
    have hc := ha id hid
    rw [Array.getElem?_eq_getElem (h.bounded id hid)] at hc
    exact (Array.getElem?_eq_some_iff.1 hc).1
  closed id c hid hc := h.closed id c hid ((ha id hid).symm.trans hc)

theorem Region.encloses (h : s.Region P) : s.Encloses P := h.closed

theorem Encloses.below (h : s.Encloses P) {i : Item} (hi : i.In P) :
    ∀ j ∈ (s.layer i).below, j.In P := by
  cases i with
  | leaf a => simp [layer,Layer.below]
  | cell id =>
    cases hc : s.cells[id]? with
    | none => simp [layer,hc,Layer.below]
    | some c =>
      have hl : s.layer (.cell id) = c.layer := by simp [layer,hc]
      rw [hl]
      exact h id c hi hc

theorem Encloses.hereditary (h : s.Encloses P) : s.view.Hereditary (Item.In P) :=
  ⟨fun _ _ => trivial,fun _ => h.below⟩

theorem Region.below (h : s.Region P) {i : Item} (hi : i.In P) :
    ∀ j ∈ (s.layer i).below, j.In P := h.encloses.below hi

theorem Region.hereditary (h : s.Region P) : s.view.Hereditary (Item.In P) := h.encloses.hereditary

theorem Agrees.layer (h : s.Agrees P s') {i : Item} (hi : i.In P) : s'.layer i = s.layer i := by
  cases i with
  | leaf a => rfl
  | cell id =>
    have hid : s'.cells[id]? = s.cells[id]? := h id hi
    simp only [Store.layer,hid]

theorem mapM_some_mono {α β : Type} {f g : α → Option β} {xs : List α}
    (h : ∀ x ∈ xs, ∀ y, f x = some y → g x = some y) {ys : List β} (hf : xs.mapM f = some ys) :
    xs.mapM g = some ys := by
  induction xs generalizing ys with
  | nil => exact hf
  | cons x xs ih =>
    simp only [List.mapM_cons,Option.bind_eq_bind,Option.bind_eq_some_iff,Option.pure_def,
      Option.some.injEq] at hf ⊢
    obtain ⟨y,hy,zs,hzs,rfl⟩ := hf
    exact ⟨y,h x List.mem_cons_self y hy,zs,
      ih (fun x hx => h x (List.mem_cons_of_mem _ hx)) hzs,rfl⟩

/-- What stands in a region is read the same from a store that agrees on it, at any greater
depth. -/
theorem Region.readTo_mono (h : s.Region P) (ha : s.Agrees P s') {d d' : Nat} (hd : d ≤ d')
    {i : Item} (hi : i.In P) {v : Value} (hv : s.readTo d i = some v) :
    s'.readTo d' i = some v := by
  induction d generalizing d' i v with
  | zero => cases hv
  | succ d ih =>
    obtain ⟨d',rfl⟩ : ∃ n, d' = n + 1 := ⟨d' - 1,by omega⟩
    have hparts := h.below hi
    unfold readTo at hv ⊢
    rw [ha.layer hi]
    cases hl : s.layer i with
    | scalar a =>
      rw [hl] at hv
      exact hv
    | list xs =>
      rw [hl] at hv hparts
      obtain ⟨ys,hys,rfl⟩ := Option.map_eq_some_iff.1 hv
      refine Option.map_eq_some_iff.2 ⟨ys,mapM_some_mono ?_ hys,rfl⟩
      exact fun x hx y hy => ih (by omega) (hparts x hx) hy
    | object es =>
      rw [hl] at hv hparts
      obtain ⟨ys,hys,rfl⟩ := Option.map_eq_some_iff.1 hv
      refine Option.map_eq_some_iff.2 ⟨ys,mapM_some_mono ?_ hys,rfl⟩
      intro e he y hy
      obtain ⟨w,hw,rfl⟩ := Option.map_eq_some_iff.1 hy
      exact Option.map_eq_some_iff.2
        ⟨w,ih (by omega) (hparts e.2 (List.mem_map_of_mem he)) hw,rfl⟩

/-- Deep reads of a region do not tell stores apart that agree on it. -/
theorem Region.readTo_eq (h : s.Region P) (ha : s.Agrees P s') {i : Item} (hi : i.In P) (d : Nat) :
    s'.readTo d i = s.readTo d i := by
  ext v
  constructor
  · exact (h.of_agrees ha).readTo_mono (fun id hid => (ha id hid).symm) (Nat.le_refl d) hi
  · exact h.readTo_mono ha (Nat.le_refl d) hi

theorem alloc_grows (s : Store) (c : Cell) : s.Grows (s.alloc c).1 := by
  intro id c' hc
  have hlt := (Array.getElem?_eq_some_iff.1 hc).1
  simp only [alloc,Array.getElem?_push]
  rw [if_neg (by omega)]
  exact hc

mutual

theorem plant_grows (s : Store) : ∀ v : Value, s.Grows (s.plant v).1
  | .scalar _ => refl_of Grows s
  | .list xs => trans_of Grows (plantItems_grows s xs) (alloc_grows _ _)
  | .object es => trans_of Grows (plantEntries_grows s es) (alloc_grows _ _)

theorem plantItems_grows (s : Store) : ∀ xs : List Value, s.Grows (s.plantItems xs).1
  | [] => refl_of Grows s
  | x :: rest => trans_of Grows (plant_grows s x) (plantItems_grows _ rest)

theorem plantEntries_grows (s : Store) :
    ∀ es : List (String × Value), s.Grows (s.plantEntries es).1
  | [] => refl_of Grows s
  | (_,x) :: rest => trans_of Grows (plant_grows s x) (plantEntries_grows _ rest)

end

end Store

end StepGraph
