import StepGraph.Proofs.PathWrite

/-!
Trees in containers of their own. An item spells a tree when its containers stand in the store, the
parts in front of the whole; what was planted spells what it was planted from, and goes on to do so
while the store grows.
-/
namespace StepGraph

namespace Store

mutual

/-- An item spells a tree in containers with smaller identities than a bound. -/
inductive Spells (s : Store) : Nat → Value → Item → Prop
  | leaf (n : Nat) (a : Scalar) : Spells s n (.scalar a) (.leaf a)
  | list {n id : Nat} {xs : List Value} {is : List Item} (lt : id < n)
      (cell : s.cells[id]? = some (.list is)) (parts : SpellsAll s id xs is) :
      Spells s n (.list xs) (.cell id)
  | object {n id : Nat} {es : List (String × Value)} {is : Entries Item} (lt : id < n)
      (cell : s.cells[id]? = some (.object is)) (fields : SpellsFields s id es is) :
      Spells s n (.object es) (.cell id)

inductive SpellsAll (s : Store) : Nat → List Value → List Item → Prop
  | nil (n : Nat) : SpellsAll s n [] []
  | cons {n : Nat} {x : Value} {i : Item} {xs : List Value} {is : List Item}
      (first : Spells s n x i) (rest : SpellsAll s n xs is) : SpellsAll s n (x :: xs) (i :: is)

inductive SpellsFields (s : Store) : Nat → List (String × Value) → Entries Item → Prop
  | nil (n : Nat) : SpellsFields s n [] []
  | cons {n : Nat} {k : String} {x : Value} {i : Item} {es : List (String × Value)}
      {is : Entries Item} (first : Spells s n x i) (rest : SpellsFields s n es is) :
      SpellsFields s n ((k,x) :: es) ((k,i) :: is)

end

variable {s s' : Store} {n n' : Nat} {i : Item} {v : Value}

mutual

theorem Spells.mono {n n' : Nat} {v : Value} {i : Item} (h : s.Spells n v i) (hg : s.Grows s')
    (hn : n ≤ n') : s'.Spells n' v i := by
  cases h with
  | leaf n a => exact .leaf n' a
  | list lt cell parts => exact .list (by omega) (hg _ _ cell) (parts.mono hg (Nat.le_refl _))
  | object lt cell fields => exact .object (by omega) (hg _ _ cell) (fields.mono hg (Nat.le_refl _))

theorem SpellsAll.mono {n n' : Nat} {xs : List Value} {is : List Item} (h : s.SpellsAll n xs is)
    (hg : s.Grows s') (hn : n ≤ n') : s'.SpellsAll n' xs is := by
  cases h with
  | nil => exact .nil n'
  | cons first rest => exact .cons (first.mono hg hn) (rest.mono hg hn)

theorem SpellsFields.mono {n n' : Nat} {es : List (String × Value)} {is : Entries Item}
    (h : s.SpellsFields n es is) (hg : s.Grows s') (hn : n ≤ n') : s'.SpellsFields n' es is := by
  cases h with
  | nil => exact .nil n'
  | cons first rest => exact .cons (first.mono hg hn) (rest.mono hg hn)

end

theorem Spells.grows (h : s.Spells n v i) (hg : s.Grows s') : s'.Spells n v i :=
  h.mono hg (Nat.le_refl n)

mutual

theorem Encloses.spells {P : Nat → Prop} (hP : s.Encloses P) (ha : s.Agrees P s') {n : Nat}
    {v : Value}
    {i : Item} (hi : i.In P) (h : s.Spells n v i) : s'.Spells n v i := by
  cases h with
  | leaf n a => exact .leaf n a
  | list lt cell parts =>
    exact .list lt ((ha _ hi).trans cell) (hP.spellsAll ha (hP _ _ hi cell) parts)
  | object lt cell fields =>
    exact .object lt ((ha _ hi).trans cell) (hP.spellsFields ha (hP _ _ hi cell) fields)

theorem Encloses.spellsAll {P : Nat → Prop} (hP : s.Encloses P) (ha : s.Agrees P s') {n : Nat}
    {xs : List Value} {is : List Item} (hi : ∀ i ∈ is, i.In P) (h : s.SpellsAll n xs is) :
    s'.SpellsAll n xs is := by
  cases h with
  | nil => exact .nil n
  | cons first rest =>
    obtain ⟨hfirst,hrest⟩ := List.forall_mem_cons.1 hi
    exact .cons (hP.spells ha hfirst first) (hP.spellsAll ha hrest rest)

theorem Encloses.spellsFields {P : Nat → Prop} (hP : s.Encloses P) (ha : s.Agrees P s') {n : Nat}
    {es : List (String × Value)} {is : Entries Item} (hi : ∀ i ∈ is.map Prod.snd, i.In P)
    (h : s.SpellsFields n es is) : s'.SpellsFields n es is := by
  cases h with
  | nil => exact .nil n
  | cons first rest =>
    obtain ⟨hfirst,hrest⟩ := List.forall_mem_cons.1 hi
    exact .cons (hP.spells ha hfirst first) (hP.spellsFields ha hrest rest)

end

theorem Region.spells {P : Nat → Prop} (hP : s.Region P) (ha : s.Agrees P s') {n : Nat} {v : Value}
    {i : Item} (hi : i.In P) (h : s.Spells n v i) : s'.Spells n v i := hP.encloses.spells ha hi h

theorem Grows.size_le (h : s.Grows s') : s.cells.size ≤ s'.cells.size := by
  refine Nat.le_of_not_lt fun hlt => ?_
  have hc := h _ _ (Array.getElem?_eq_getElem hlt)
  exact absurd (Array.getElem?_eq_some_iff.1 hc).1 (Nat.lt_irrefl _)

theorem alloc_cell (s : Store) (c : Cell) : (s.alloc c).1.cells[s.cells.size]? = some c := by
  simp [alloc]

theorem alloc_size (s : Store) (c : Cell) : s.cells.size < (s.alloc c).1.cells.size := by
  simp [alloc]

mutual

theorem spells_plant (s : Store) :
    ∀ v : Value, (s.plant v).1.Spells (s.plant v).1.cells.size v (s.plant v).2
  | .scalar a => .leaf _ a
  | .list xs => by
    have hp := (spells_plantItems s xs).mono (alloc_grows _ (.list (s.plantItems xs).2))
      (Nat.le_refl _)
    exact .list (alloc_size _ _) (alloc_cell _ _) hp
  | .object es => by
    have hp := (spells_plantEntries s es).mono (alloc_grows _ (.object (s.plantEntries es).2))
      (Nat.le_refl _)
    exact .object (alloc_size _ _) (alloc_cell _ _) hp

theorem spells_plantItems (s : Store) : ∀ xs : List Value,
    (s.plantItems xs).1.SpellsAll (s.plantItems xs).1.cells.size xs (s.plantItems xs).2
  | [] => .nil _
  | x :: rest => by
    have hg := plantItems_grows (s.plant x).1 rest
    exact .cons ((spells_plant s x).mono hg hg.size_le) (spells_plantItems _ rest)

theorem spells_plantEntries (s : Store) : ∀ es : List (String × Value),
    (s.plantEntries es).1.SpellsFields (s.plantEntries es).1.cells.size es (s.plantEntries es).2
  | [] => .nil _
  | (k,x) :: rest => by
    have hg := plantEntries_grows (s.plant x).1 rest
    exact .cons ((spells_plant s x).mono hg hg.size_le) (spells_plantEntries _ rest)

end

theorem readTo_le {d d' : Nat} (hd : d ≤ d') (h : s.readTo d i = some v) :
    s.readTo d' i = some v := by
  induction hd with
  | refl => exact h
  | step _ ih => exact readTo_succ ih

mutual

theorem Spells.readTo {n : Nat} {v : Value} {i : Item} (h : s.Spells n v i) :
    s.readTo (n + 1) i = some v := by
  cases h with
  | leaf n a => rfl
  | list lt cell parts =>
    unfold Store.readTo
    simp only [layer,cell,Cell.layer]
    rw [parts.readTo lt]
    rfl
  | object lt cell fields =>
    unfold Store.readTo
    simp only [layer,cell,Cell.layer]
    rw [fields.readTo lt]
    rfl

theorem SpellsAll.readTo {n d : Nat} {xs : List Value} {is : List Item} (h : s.SpellsAll n xs is)
    (hd : n < d) : is.mapM (s.readTo d) = some xs := by
  cases h with
  | nil => rfl
  | cons first rest =>
    rw [List.mapM_cons,rest.readTo hd,readTo_le hd first.readTo]
    rfl

theorem SpellsFields.readTo {n d : Nat} {es : List (String × Value)} {is : Entries Item}
    (h : s.SpellsFields n es is) (hd : n < d) : is.mapM (readEntry (s.readTo d)) = some es := by
  cases h with
  | nil => rfl
  | cons first rest =>
    rw [List.mapM_cons,rest.readTo hd]
    simp only [readEntry,readTo_le hd first.readTo]
    rfl

end

theorem Spells.read (h : s.Spells n v i) : s.read i = .ok v := by
  have hr : s.read? i = some v := by
    unfold read?
    cases h with
    | leaf n a => rfl
    | list lt cell parts =>
      have hlt := (Array.getElem?_eq_some_iff.1 cell).1
      exact readTo_le (Nat.succ_le_succ hlt) (Spells.list (Nat.lt_succ_self _) cell parts).readTo
    | object lt cell fields =>
      have hlt := (Array.getElem?_eq_some_iff.1 cell).1
      exact readTo_le (Nat.succ_le_succ hlt) (Spells.object (Nat.lt_succ_self _) cell fields).readTo
  unfold Store.read
  rw [hr]

theorem SpellsFields.keys {es : List (String × Value)} {is : Entries Item}
    (h : s.SpellsFields n es is) : Entries.keys is = Entries.keys es := by
  induction es generalizing is with
  | nil =>
    cases h
    rfl
  | cons e es ih =>
    cases h with
    | cons _ rest => exact congrArg (_ :: ·) (ih rest)

theorem SpellsFields.get? {es : List (String × Value)} {is : Entries Item}
    (h : s.SpellsFields n es is) (k : String) :
    Option.Rel (fun i v => s.Spells n v i) (Entries.get? is k) (Entries.get? es k) := by
  induction es generalizing is with
  | nil =>
    cases h
    exact .none
  | cons e es ih =>
    cases h with
    | cons first rest =>
      unfold Entries.get?
      split
      · exact .some first
      · exact ih rest

theorem Spells.entries (h : s.Spells n v i) : s.SpellsFields n v.entries (s.entries i) := by
  cases h with
  | leaf n a => exact .nil n
  | list lt cell parts =>
    simp only [Store.entries,layer,cell,Cell.layer]
    exact .nil n
  | object lt cell fields =>
    simp only [Store.entries,layer,cell,Cell.layer]
    exact fields.mono (refl_of Grows s) (Nat.le_of_lt lt)

theorem Spells.keys (h : s.Spells n v i) :
    Entries.keys (s.entries i) = Entries.keys v.entries := h.entries.keys

theorem Spells.field (h : s.Spells n v i) (k : String) : s.Spells n (v.field k) (s.field i k) := by
  have none : s.Spells n .null .null := .leaf n .null
  unfold Store.field Value.field View.field View.child?
  cases h with
  | leaf n a => exact none
  | list lt cell parts =>
    simp only [view,layer,cell,Cell.layer]
    exact none
  | object lt cell fields =>
    simp only [view,layer,cell,Cell.layer,Value.view,Value.layer]
    have hf := fields.get? k
    revert hf
    generalize Entries.get? _ k = a
    generalize Entries.get? _ k = b
    intro hf
    cases hf with
    | some h => exact h.mono (refl_of Grows s) (Nat.le_of_lt lt)
    | none => exact none

theorem SpellsAll.isEmpty {xs : List Value} {is : List Item} (h : s.SpellsAll n xs is) :
    is.isEmpty = xs.isEmpty := by
  cases h <;> rfl

theorem SpellsFields.isEmpty {es : List (String × Value)} {is : Entries Item}
    (h : s.SpellsFields n es is) : is.isEmpty = es.isEmpty := by
  cases h <;> rfl

theorem Spells.truthy (h : s.Spells n v i) : s.view.truthy i = v.truthy := by
  unfold View.truthy Value.truthy View.truthy
  cases h with
  | leaf n a => rfl
  | list lt cell parts =>
    simp only [view,layer,cell,Cell.layer,Value.view,Value.layer]
    rw [parts.isEmpty]
  | object lt cell fields =>
    simp only [view,layer,cell,Cell.layer,Value.view,Value.layer]
    rw [fields.isEmpty]

theorem SpellsAll.mem {xs : List Value} {is : List Item} (h : s.SpellsAll n xs is) :
    ∀ i ∈ is, ∃ x ∈ xs, s.Spells n x i := by
  induction xs generalizing is with
  | nil =>
    cases h
    simp
  | cons x xs ih =>
    cases h with
    | cons first rest =>
      refine List.forall_mem_cons.2 ⟨⟨x,List.mem_cons_self,first⟩,fun i hi => ?_⟩
      obtain ⟨y,hy,hs⟩ := ih rest i hi
      exact ⟨y,List.mem_cons_of_mem _ hy,hs⟩

theorem spellsAll_leaves {α : Type} (s : Store) (n : Nat) (f : α → Scalar) (as : List α) :
    s.SpellsAll n (as.map fun a => .scalar (f a)) (as.map fun a => .leaf (f a)) := by
  induction as with
  | nil => exact .nil n
  | cons a as ih => exact .cons (.leaf n (f a)) ih

theorem Spells.parts (h : s.Spells n v i) {is : List Item} (hp : s.view.parts i = .ok is) :
    ∃ xs, v.parts = .ok xs ∧ s.SpellsAll n xs is := by
  unfold Value.parts View.parts
  unfold View.parts at hp
  cases h with
  | leaf n a =>
    cases a <;> cases hp
    · exact ⟨_,rfl,spellsAll_leaves s n (fun c : Char => .text c.toString) _⟩
    · exact ⟨_,rfl,spellsAll_leaves s n (fun b : UInt8 => .int b.toNat) _⟩
  | list lt cell parts =>
    simp only [view,layer,cell,Cell.layer] at hp
    cases hp
    exact ⟨_,rfl,parts.mono (refl_of Grows s) (Nat.le_of_lt lt)⟩
  | @object _ _ es is lt cell fields =>
    simp only [view,layer,cell,Cell.layer] at hp
    cases hp
    have hleaves : is.map (fun e => Item.text e.1) = (Entries.keys es).map fun k => .text k := by
      rw [← fields.keys,Entries.keys,List.map_map]
      rfl
    refine ⟨(Entries.keys es).map fun k => .text k,?_,?_⟩
    · rw [Entries.keys,List.map_map]
      rfl
    · change s.SpellsAll n _ (is.map fun e => Item.text e.1)
      rw [hleaves]
      exact spellsAll_leaves s n Scalar.text _

theorem Spells.optionalParts (h : s.Spells n v i) {is : List Item}
    (hp : s.view.optionalParts i = .ok is) : ∃ xs, v.optionalParts = .ok xs ∧ s.SpellsAll n xs is := by
  unfold View.optionalParts at hp
  unfold Value.optionalParts View.optionalParts
  rw [h.truthy] at hp
  change ∃ xs, (if v.truthy then v.parts else .ok []) = .ok xs ∧ _
  split at hp
  · rename_i ht
    rw [if_pos ht]
    exact h.parts hp
  · rename_i ht
    cases hp
    rw [if_neg ht]
    exact ⟨[],rfl,.nil n⟩

theorem Spells.head (h : s.Spells n v i) {o : Item} {rest : List Item}
    (hl : s.layer i = .list (o :: rest)) : ∃ x xs m, v = .list (x :: xs) ∧ s.Spells m x o := by
  cases h with
  | leaf n a => cases hl
  | list lt cell parts =>
    simp only [layer,cell,Cell.layer,Layer.list.injEq] at hl
    subst hl
    cases parts with
    | cons first _ => exact ⟨_,_,_,rfl,first⟩
  | object lt cell fields =>
    simp only [layer,cell,Cell.layer] at hl
    cases hl

end Store

end StepGraph
