import Mathlib.Data.Finset.Card
import Mathlib.Data.Finset.Range
import StepGraph.Proofs.Mirror

/-!
What an item leads to, and which container a write changes. A write goes down through containers
that are there and changes one of them, the last that it comes to; all others it leaves. So a tree
stays that does not lead to that one. What is read to some depth leads to nothing twice on one way,
so it is read as deep as there are containers.
-/
namespace StepGraph

def Item.id? : Item → Option Nat
  | .leaf _ => none
  | .cell id => some id

namespace Store

variable {s s' : Store} {P : Nat → Prop} {i j x : Item} {id n d : Nat} {v : Value}

inductive Reaches (s : Store) : Item → Nat → Prop
  | here (id : Nat) : Reaches s (.cell id) id
  | further {i j : Item} {id : Nat} (part : j ∈ (s.layer i).below) (behind : Reaches s j id) :
      Reaches s i id

theorem Reaches.trans {id' : Nat} (h : s.Reaches i id) (h' : s.Reaches (.cell id) id') :
    s.Reaches i id' := by
  induction h with
  | here id => exact h'
  | further part _ ih => exact .further part (ih h')

theorem in_reaches (s : Store) (i : Item) : i.In (s.Reaches i) := by
  cases i with
  | leaf a => trivial
  | cell id => exact .here id

theorem encloses_reaches (s : Store) (i : Item) : s.Encloses (s.Reaches i) := by
  intro id c hid hc j hj
  have hl : s.layer (.cell id) = c.layer := by simp [layer,hc]
  cases j with
  | leaf a => trivial
  | cell k => exact hid.trans (.further (hl ▸ hj) (.here k))

theorem Encloses.reaches (h : s.Encloses P) (hi : i.In P) (hid : s.Reaches i id) : P id := by
  induction hid with
  | here id => exact hi
  | further part _ ih => exact ih (h.below hi _ part)

theorem reaches_iff (ha : s.Agrees (s.Reaches i) s') : s'.Reaches i id ↔ s.Reaches i id := by
  have forth {j : Item} {id : Nat} (h : s'.Reaches j id) (hj : j.In (s.Reaches i)) :
      s.Reaches j id := by
    induction h with
    | here id => exact .here id
    | further part _ ih =>
      rw [ha.layer hj] at part
      exact .further part (ih ((s.encloses_reaches i).below hj _ part))
  have back {j : Item} {id : Nat} (h : s.Reaches j id) (hj : j.In (s.Reaches i)) :
      s'.Reaches j id := by
    induction h with
    | here id => exact .here id
    | further part _ ih =>
      refine .further ?_ (ih ((s.encloses_reaches i).below hj _ part))
      rw [ha.layer hj]
      exact part
  exact ⟨fun h => forth h (s.in_reaches i),fun h => back h (s.in_reaches i)⟩

theorem Agrees.mono {Q : Nat → Prop} (h : s.Agrees P s') (hQ : ∀ id, Q id → P id) :
    s.Agrees Q s' := fun id hid => h id (hQ id hid)

theorem Spells.of_reaches (h : s.Spells n v i) (ha : s.Agrees (s.Reaches i) s') :
    s'.Spells n v i := (s.encloses_reaches i).spells ha (s.in_reaches i) h

mutual

theorem Spells.reaches_lt {n : Nat} {v : Value} {i : Item} {id : Nat} (h : s.Spells n v i)
    (hid : s.Reaches i id) : id < n := by
  cases h with
  | leaf n a =>
    cases hid with
    | further part _ => simp [layer,Layer.below] at part
  | list lt cell parts =>
    cases hid with
    | here => exact lt
    | further part behind =>
      rw [layer,cell] at part
      exact Nat.lt_trans (parts.reaches_lt part behind) lt
  | object lt cell fields =>
    cases hid with
    | here => exact lt
    | further part behind =>
      rw [layer,cell] at part
      exact Nat.lt_trans (fields.reaches_lt part behind) lt

theorem SpellsAll.reaches_lt {n : Nat} {xs : List Value} {is : List Item} {j : Item} {id : Nat}
    (h : s.SpellsAll n xs is) (hj : j ∈ is) (hid : s.Reaches j id) : id < n := by
  cases h with
  | nil => cases hj
  | cons first rest =>
    rcases List.mem_cons.1 hj with rfl | hj
    · exact first.reaches_lt hid
    · exact rest.reaches_lt hj hid

theorem SpellsFields.reaches_lt {n : Nat} {es : List (String × Value)} {is : Entries Item}
    {j : Item} {id : Nat} (h : s.SpellsFields n es is) (hj : j ∈ is.map Prod.snd)
    (hid : s.Reaches j id) : id < n := by
  cases h with
  | nil => cases hj
  | cons first rest =>
    rcases List.mem_cons.1 hj with rfl | hj
    · exact first.reaches_lt hid
    · exact rest.reaches_lt hj hid

end

/-- The container of those that are there which a write changes: the last that it comes to. -/
def meets? (s : Store) : Item → List String → Option Nat
  | _, [] => none
  | i, [_] => i.id?
  | i, part :: next :: rest =>
    match (s.layer i).child? part with
    | .error _ => none
    | .ok c =>
      match c.filter s.isContainer with
      | some j => s.meets? j (next :: rest)
      | none => i.id?

theorem writeAt_meets (parts : List String) (s : Store) (i x : Item) :
    s.cells.size ≤ (s.writeAt i parts x).1.cells.size ∧
      ∀ k < s.cells.size, s.meets? i parts ≠ some k →
        (s.writeAt i parts x).1.cells[k]? = s.cells[k]? := by
  induction parts generalizing s i with
  | nil => exact ⟨Nat.le_refl _,fun _ _ _ => rfl⟩
  | cons part rest ih =>
    cases rest with
    | nil =>
      unfold writeAt
      rcases s.assign_cases i part x with ⟨f,ha⟩ | ⟨id,s',rfl,-,ha,-,hs,hk⟩ <;> rw [ha]
      · exact ⟨Nat.le_refl _,fun _ _ _ => rfl⟩
      · exact ⟨Nat.le_of_eq hs.symm,fun k _ hne => hk k fun he => hne (congrArg some he.symm)⟩
    | cons next rest =>
      rcases s.writeAt_cases i part next rest x with ⟨f,-,hw⟩ | ⟨j,hj,hc,hw⟩ | ⟨o,s',ho,hf,hp,hw⟩ <;>
        rw [hw]
      · exact ⟨Nat.le_refl _,fun _ _ _ => rfl⟩
      · have hmeets : s.meets? i (part :: next :: rest) = s.meets? j (next :: rest) := by
          simp only [meets?,hj,Option.filter_some,hc,if_true]
        rw [hmeets]
        exact ih s j
      · have hmeets : s.meets? i (part :: next :: rest) = i.id? := by simp only [meets?,ho,hf]
        obtain ⟨hsize,hsame⟩ := writeAt_encloses (x := x) (next :: rest) hp.encloses_new
          (i := .cell s.cells.size) rfl
        rw [hp.size] at hsize hsame
        refine ⟨Nat.le_of_succ_le hsize,fun k hk hne => ?_⟩
        rw [hsame k (Nat.lt_succ_of_lt hk) (Nat.ne_of_lt hk)]
        refine hp.same k hk fun he => hne ?_
        rw [hmeets,he]
        rfl

theorem Encloses.meets (h : s.Encloses P) (parts : List String) (hi : i.In P)
    (hid : s.meets? i parts = some id) : P id := by
  have here {i : Item} (hi : i.In P) (hid : i.id? = some id) : P id := by
    cases i with
    | leaf a => cases hid
    | cell k =>
      cases hid
      exact hi
  induction parts generalizing i with
  | nil => cases hid
  | cons part rest ih =>
    cases rest with
    | nil => exact here hi hid
    | cons next rest =>
      unfold meets? at hid
      split at hid
      · cases hid
      · rename_i c hc
        split at hid
        · rename_i j hj
          obtain ⟨rfl,-⟩ := Option.filter_eq_some_iff.1 hj
          exact ih (h.below hi _ (Layer.child?_below hc)) hid
        · exact here hi hid

theorem agrees_writeAt {parts : List String} (h : s.Spells n v i)
    (hn : n ≤ s.cells.size) (hm : ∀ id, s.meets? j parts = some id → ¬s.Reaches i id) :
    s.Agrees (s.Reaches i) (s.writeAt j parts x).1 := by
  intro id hid
  exact (writeAt_meets parts s j x).2 id (Nat.lt_of_lt_of_le (h.reaches_lt hid) hn)
    fun he => hm id he hid

theorem mapM_some_iff {α β : Type} {f : α → Option β} {xs : List α} :
    (∃ ys, xs.mapM f = some ys) ↔ ∀ x ∈ xs, ∃ y, f x = some y := by
  induction xs with
  | nil => simp
  | cons x xs ih =>
    rw [List.forall_mem_cons,← ih,List.mapM_cons]
    constructor
    · rintro ⟨ys,hys⟩
      obtain ⟨y,hy,hys⟩ := Option.bind_eq_some_iff.1 hys
      obtain ⟨zs,hzs,-⟩ := Option.bind_eq_some_iff.1 hys
      exact ⟨⟨y,hy⟩,zs,hzs⟩
    · rintro ⟨⟨y,hy⟩,zs,hzs⟩
      exact ⟨y :: zs,by rw [hy,hzs]; rfl⟩

theorem readTo_some_iff : (∃ v, s.readTo (d + 1) i = some v) ↔
    ∀ j ∈ (s.layer i).below, ∃ u, s.readTo d j = some u := by
  have mapped {α β : Type} (f : α → β) (o : Option α) :
      (∃ y, o.map f = some y) ↔ ∃ x, o = some x := by cases o <;> simp
  rw [readTo]
  cases s.layer i with
  | scalar a => simp [Layer.below]
  | list xs => rw [mapped,mapM_some_iff,Layer.below]
  | object es =>
    rw [mapped,mapM_some_iff,Layer.below,List.forall_mem_map]
    exact forall₂_congr fun e _ => mapped _ _

theorem readTo_reaches (h : s.readTo d i = some v) (hid : s.Reaches i id) :
    ∃ u, s.readTo d (.cell id) = some u := by
  induction hid generalizing d v with
  | here id => exact ⟨v,h⟩
  | further part _ ih =>
    cases d with
    | zero => cases h
    | succ d =>
      obtain ⟨u,hu⟩ := readTo_some_iff.1 ⟨v,h⟩ _ part
      obtain ⟨u',hu'⟩ := ih hu
      exact ⟨u',readTo_le (Nat.le_succ d) hu'⟩

/-- What is read does not lead back to itself. -/
theorem not_reaches_of_readTo (h : s.readTo d (.cell id) = some v)
    (hj : j ∈ (s.layer (.cell id)).below) : ¬s.Reaches j id := by
  intro hid
  induction d generalizing v with
  | zero => cases h
  | succ d ih =>
    obtain ⟨u,hu⟩ := readTo_some_iff.1 ⟨v,h⟩ j hj
    obtain ⟨u',hu'⟩ := readTo_reaches hu hid
    exact ih hu'

/-- A read goes no deeper than there are containers to lead to. -/
theorem readTo_card {S : Finset Nat} (h : s.readTo d i = some v)
    (hS : ∀ id, s.Reaches i id → id < s.cells.size → id ∈ S) :
    ∃ u, s.readTo (S.card + 1) i = some u := by
  induction d generalizing S i v with
  | zero => cases h
  | succ d ih =>
    refine readTo_some_iff.2 fun j hj => ?_
    obtain ⟨u,hu⟩ := readTo_some_iff.1 ⟨v,h⟩ j hj
    cases i with
    | leaf a => cases hj
    | cell id =>
      have hlt : id < s.cells.size := by
        by_contra hge
        simp [layer,Array.getElem?_eq_none (Nat.le_of_not_lt hge),Layer.below] at hj
      -- what was read does not lead back, so its container can be left out below it
      rw [← Finset.card_erase_add_one (hS id (.here id) hlt)]
      refine ih hu fun k hk hlt => Finset.mem_erase.2 ⟨?_,hS k (.further hj hk) hlt⟩
      rintro rfl
      exact not_reaches_of_readTo h hj hk

theorem tells_of_readTo (h : s.readTo d i = some v) : s.Tells i v := by
  obtain ⟨u,hu⟩ := readTo_card (S := Finset.range s.cells.size) h fun _ _ => Finset.mem_range.2
  rw [Finset.card_range] at hu
  have hv : s.readTo (max d (s.cells.size + 1)) i = some v := readTo_le (Nat.le_max_left ..) h
  rw [readTo_le (Nat.le_max_right ..) hu] at hv
  cases hv
  exact ⟨_,Nat.le_refl _,hu⟩

end Store

end StepGraph
