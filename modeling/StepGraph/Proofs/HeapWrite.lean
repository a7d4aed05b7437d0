import StepGraph.Proofs.Exec
import StepGraph.Proofs.Heap
import StepGraph.Proofs.Keys
import StepGraph.Http.Form

/-!
Writes that stay in a part of the store. A form fills in documents of its configuration where they
stand; all that such a write reaches is the configuration's own containers and new ones.
-/
namespace StepGraph

namespace Store

def upTo (s : Store) (Q : Nat → Prop) (id : Nat) : Prop := Q id ∧ id < s.cells.size

/-- A change that wrote in a set only and led nothing out of it. -/
structure Inside (Q : Nat → Prop) (s s' : Store) : Prop where
  region : s'.Region (s'.upTo Q)
  size_le : s.cells.size ≤ s'.cells.size
  outside : ∀ id, ¬ Q id → s'.cells[id]? = s.cells[id]?

variable {Q : Nat → Prop} {s s' s'' : Store} {i x : Item}

theorem Inside.refl (h : s.Region (s.upTo Q)) : Inside Q s s := ⟨h,Nat.le_refl _,fun _ _ => rfl⟩

theorem Inside.trans (h : Inside Q s s') (h' : Inside Q s' s'') : Inside Q s s'' :=
  ⟨h'.region,Nat.le_trans h.size_le h'.size_le,
    fun id hid => (h'.outside id hid).trans (h.outside id hid)⟩

theorem Inside.mem (h : Inside Q s s') (hi : i.In (s.upTo Q)) : i.In (s'.upTo Q) :=
  hi.mono fun _ hid => ⟨hid.1,Nat.lt_of_lt_of_le hid.2 h.size_le⟩

theorem Inside.foldl {ι : Type} {f : Store → ι → Store} {is : List ι} (h : s.Region (s.upTo Q))
    (hf : ∀ s', Inside Q s s' → ∀ i ∈ is, Inside Q s' (f s' i)) : Inside Q s (is.foldl f s) := by
  induction is generalizing s with
  | nil => exact .refl h
  | cons i is ih =>
    have hi := hf s (.refl h) i List.mem_cons_self
    apply hi.trans
    apply ih hi.region
    intro s' hs' j hj
    exact hf s' (hi.trans hs') j (List.mem_cons_of_mem _ hj)

def withNew (s : Store) (Q : Nat → Prop) (id : Nat) : Prop := Q id ∨ s.cells.size ≤ id

theorem Region.upTo_withNew (h : s.Region Q) : s.upTo (s.withNew Q) = Q := by
  funext id
  refine propext ⟨fun hid => hid.1.resolve_right (Nat.not_le.2 hid.2),fun hid => ?_⟩
  exact ⟨.inl hid,h.bounded id hid⟩

theorem Region.withNew (h : s.Region Q) : s.Region (s.upTo (s.withNew Q)) := by
  rw [h.upTo_withNew]
  exact h

theorem Region.mem_withNew (h : s.Region Q) (hi : i.In Q) : i.In (s.upTo (s.withNew Q)) := by
  rw [h.upTo_withNew]
  exact hi

theorem Region.not_withNew {P : Nat → Prop} (h : s.Region P) (hd : ∀ id, P id → ¬ Q id) {id : Nat}
    (hid : P id) : ¬ s.withNew Q id := by
  rintro (hq | hnew)
  · exact hd id hid hq
  · exact Nat.not_lt.2 hnew (h.bounded id hid)

theorem alloc_inside (hQ : ∀ id, s.cells.size ≤ id → Q id) (h : s.Region (s.upTo Q)) {c : Cell}
    (hc : ∀ j ∈ c.layer.below, j.In (s.upTo Q)) :
    Inside Q s (s.alloc c).1 ∧ (s.alloc c).2.In ((s.alloc c).1.upTo Q) := by
  have hsize : (s.alloc c).1.cells.size = s.cells.size + 1 := by simp [alloc]
  have hmem {j : Item} (hj : j.In (s.upTo Q)) : j.In ((s.alloc c).1.upTo Q) :=
    hj.mono fun id hid => ⟨hid.1,by rw [hsize]; exact Nat.lt_succ_of_lt hid.2⟩
  refine ⟨⟨⟨fun id hid => hid.2,?_⟩,by omega,?_⟩,?_⟩
  · intro id c' hid hc' j hj
    simp only [alloc,Array.getElem?_push] at hc'
    split at hc'
    · cases hc'
      exact hmem (hc j hj)
    · have hlt := (Array.getElem?_eq_some_iff.1 hc').1
      exact hmem (h.closed id c' ⟨hid.1,hlt⟩ hc' j hj)
  · intro id hid
    have hlt : id ≠ s.cells.size := fun he => hid (hQ id (Nat.le_of_eq he.symm))
    simp only [alloc,Array.getElem?_push]
    rw [if_neg hlt]
  · exact ⟨hQ _ (Nat.le_refl _),by omega⟩

theorem setCell_inside (h : s.Region (s.upTo Q)) {id : Nat} (hid : Q id) {c : Cell}
    (hc : ∀ j ∈ c.layer.below, j.In (s.upTo Q)) : Inside Q s (s.setCell id c) := by
  have hsize : (s.setCell id c).cells.size = s.cells.size := by simp [setCell]
  have hup : (s.setCell id c).upTo Q = s.upTo Q := by
    funext n
    simp only [upTo,hsize]
  refine ⟨?_,Nat.le_of_eq hsize.symm,?_⟩
  · rw [hup]
    refine ⟨fun n hn => by rw [hsize]; exact hn.2,?_⟩
    intro n c' hn hc' j hj
    simp only [setCell,Array.getElem?_setIfInBounds] at hc'
    split at hc'
    · split at hc'
      · cases hc'
        exact hc j hj
      · cases hc'
    · exact h.closed n c' hn hc' j hj
  · intro n hn
    have hne : id ≠ n := fun he => hn (he ▸ hid)
    simp only [setCell,Array.getElem?_setIfInBounds]
    rw [if_neg hne]

theorem setLayer_inside (h : s.Region (s.upTo Q)) (hi : i.In (s.upTo Q)) {l : Layer Item}
    (hl : ∀ j ∈ l.below, j.In (s.upTo Q)) : Inside Q s (s.setLayer i l) := by
  cases i with
  | leaf a => cases l <;> exact .refl h
  | cell id =>
    cases l with
    | scalar a => exact .refl h
    | list xs => exact setCell_inside h hi.1 hl
    | object es => exact setCell_inside h hi.1 hl

end Store

theorem Layer.below_assign {α : Type} {pad x : α} {l l' : Layer α} {part : String}
    (h : l.assign pad part x = .ok l') : ∀ j ∈ l'.below, j ∈ l.below ∨ j = x ∨ j = pad := by
  cases l with
  | scalar a => cases h
  | object es =>
    cases h
    intro j hj
    obtain ⟨e,he,rfl⟩ := List.mem_map.1 hj
    rcases Entries.mem_put e he with he | he
    · exact .inl (List.mem_map_of_mem he)
    · exact .inr (.inl (congrArg Prod.snd he))
  | list xs =>
    simp only [assign] at h
    split at h
    · rcases hp : placeOf part with e | n
      · rw [hp] at h
        cases h
      · rw [hp] at h
        cases h
        intro j hj
        rcases List.mem_or_eq_of_mem_set hj with hj | hj
        · rcases List.mem_append.1 hj with hj | hj
          · exact .inl hj
          · exact .inr (.inr (List.eq_of_mem_replicate hj))
        · exact .inr (.inl hj)
    · cases h

theorem Layer.child?_below {α : Type} {l : Layer α} {part : String} {j : α}
    (h : l.child? part = .ok (some j)) : j ∈ l.below := by
  cases l with
  | scalar a => cases h
  | object es => exact Entries.get?_below (Except.ok.inj h)
  | list xs =>
    simp only [child?] at h
    split at h
    · rcases hp : placeOf part with e | n
      · rw [hp] at h
        cases h
      · rw [hp] at h
        exact List.mem_of_getElem? (Except.ok.inj h)
    · cases h

namespace Store

variable {Q : Nat → Prop} {s s' s'' : Store} {i x : Item}

theorem assign_inside (h : s.Region (s.upTo Q)) (hi : i.In (s.upTo Q)) (hx : x.In (s.upTo Q))
    (part : String) : Inside Q s (s.assign i part x).1 := by
  unfold assign
  cases hl : (s.layer i).assign .null part x with
  | error f => exact .refl h
  | ok l =>
    refine setLayer_inside h hi fun j hj => ?_
    rcases Layer.below_assign hl j hj with hj | rfl | rfl
    · exact h.below hi j hj
    · exact hx
    · trivial

theorem putField_inside (h : s.Region (s.upTo Q)) (hi : i.In (s.upTo Q)) (hx : x.In (s.upTo Q))
    (k : String) : Inside Q s (s.putField i k x) := by
  unfold putField
  split
  · rename_i es hl
    have hb := h.below hi
    rw [hl] at hb
    refine setLayer_inside h hi fun j hj => ?_
    obtain ⟨e,he,rfl⟩ := List.mem_map.1 hj
    rcases Entries.mem_put e he with he | he
    · exact hb _ (List.mem_map_of_mem he)
    · rw [congrArg Prod.snd he]
      exact hx
  · exact .refl h

theorem allocLayer_inside (hQ : ∀ id, s.cells.size ≤ id → Q id) (h : s.Region (s.upTo Q))
    {l : Layer Item} (hl : ∀ j ∈ l.below, j.In (s.upTo Q)) :
    Inside Q s (s.allocLayer l).1 ∧ (s.allocLayer l).2.In ((s.allocLayer l).1.upTo Q) := by
  cases l with
  | scalar a => exact ⟨.refl h,trivial⟩
  | list xs => exact alloc_inside hQ h hl
  | object es => exact alloc_inside hQ h hl

theorem fresh_below {α : Type} (next : String) : (Layer.fresh next : Layer α).below = [] := by
  unfold Layer.fresh
  split <;> rfl

theorem writeAt_inside (parts : List String) (hQ : ∀ id, s.cells.size ≤ id → Q id)
    (h : s.Region (s.upTo Q)) (hi : i.In (s.upTo Q)) (hx : x.In (s.upTo Q)) :
    Inside Q s (s.writeAt i parts x).1 := by
  induction parts generalizing s i with
  | nil => exact .refl h
  | cons part rest ih =>
    cases rest with
    | nil => exact assign_inside h hi hx part
    | cons next rest =>
      unfold writeAt
      cases hc : (s.layer i).child? part with
      | error f => exact .refl h
      | ok c =>
        cases hf : c.filter s.isContainer with
        | some j =>
          simp only [hf]
          obtain rfl : c = some j := (Option.filter_eq_some_iff.1 hf).1
          exact ih hQ h (h.below hi j (Layer.child?_below hc)) hx
        | none =>
          obtain ⟨hm,hmade⟩ := allocLayer_inside (l := Layer.fresh next) hQ h (by
            rw [fresh_below]
            simp)
          have ha := assign_inside hm.region (hm.mem hi) hmade part
          have hma := hm.trans ha
          simp only [hf]
          split
          · rename_i s' he
            rw [he] at ha hma
            exact hma.trans (ih (fun id hid => hQ id (Nat.le_trans hma.size_le hid)) ha.region
              (ha.mem hmade) (hma.mem hx))
          · rename_i s' f he
            rw [he] at hma
            exact hma

theorem fanOut_inside (parts : List String) (hQ : ∀ id, s.cells.size ≤ id → Q id)
    (h : s.Region (s.upTo Q)) (hi : i.In (s.upTo Q)) (hx : x.In (s.upTo Q)) :
    Inside Q s (fanOut parts s i x).1 := by
  induction parts generalizing s i with
  | nil => exact .refl h
  | cons part rest ih =>
    cases rest with
    | nil => exact assign_inside h hi hx part
    | cons next rest =>
      unfold fanOut
      split
      · rename_i es hl
        have hb := h.below hi
        rw [hl] at hb
        have hbelow : (Item.ofOption (Entries.get? es part)).In (s.upTo Q) :=
          Item.In.ofOption fun y hy => hb y (Entries.get?_below hy)
        simp only
        split
        · rename_i items hitems
          have hall := h.below hbelow
          rw [hitems] at hall
          -- each write of the fold finds the set as the ones before it left it
          refine Inside.foldl h fun s' hi' j hj => ?_
          split
          · exact ih (fun id hid => hQ id (Nat.le_trans hi'.size_le hid)) hi'.region
              (hi'.mem (hall j hj)) (hi'.mem hx)
          · exact .refl hi'.region
        · exact ih hQ h hbelow hx
        · obtain ⟨hm,hmade⟩ := alloc_inside (c := .object []) hQ h (by
            simp [Cell.layer,Layer.below])
          have hp := putField_inside hm.region (hm.mem hi) hmade part
          have hmp := hm.trans hp
          have hnew : ∀ id, ((s.alloc (.object [])).1.putField i part
              (s.alloc (.object [])).2).cells.size ≤ id → Q id :=
            fun id hid => hQ id (Nat.le_trans hmp.size_le hid)
          exact hmp.trans (ih hnew hp.region (hp.mem hmade) (hmp.mem hx))
      · exact .refl h

mutual

theorem plant_inside {s : Store} (hQ : ∀ id, s.cells.size ≤ id → Q id)
    (h : s.Region (s.upTo Q)) :
    ∀ v : Value, Inside Q s (s.plant v).1 ∧ (s.plant v).2.In ((s.plant v).1.upTo Q)
  | .scalar a => ⟨.refl h,trivial⟩
  | .list xs => by
    obtain ⟨hi,hb⟩ := plantItems_inside hQ h xs
    obtain ⟨ha,hx⟩ := alloc_inside (c := .list (s.plantItems xs).2)
      (fun id hid => hQ id (Nat.le_trans hi.size_le hid)) hi.region hb
    exact ⟨hi.trans ha,hx⟩
  | .object es => by
    obtain ⟨hi,hb⟩ := plantEntries_inside hQ h es
    obtain ⟨ha,hx⟩ := alloc_inside (c := .object (s.plantEntries es).2)
      (fun id hid => hQ id (Nat.le_trans hi.size_le hid)) hi.region hb
    exact ⟨hi.trans ha,hx⟩

theorem plantItems_inside {s : Store} (hQ : ∀ id, s.cells.size ≤ id → Q id)
    (h : s.Region (s.upTo Q)) :
    ∀ xs : List Value, Inside Q s (s.plantItems xs).1 ∧
      ∀ j ∈ (s.plantItems xs).2, j.In ((s.plantItems xs).1.upTo Q)
  | [] => ⟨.refl h,by simp [plantItems]⟩
  | x :: rest => by
    obtain ⟨hi,hx⟩ := plant_inside hQ h x
    obtain ⟨hr,hb⟩ := plantItems_inside (fun id hid => hQ id (Nat.le_trans hi.size_le hid))
      hi.region rest
    refine ⟨hi.trans hr,?_⟩
    simp only [plantItems]
    exact List.forall_mem_cons.2 ⟨hr.mem hx,hb⟩

theorem plantEntries_inside {s : Store} (hQ : ∀ id, s.cells.size ≤ id → Q id)
    (h : s.Region (s.upTo Q)) :
    ∀ es : List (String × Value), Inside Q s (s.plantEntries es).1 ∧
      ∀ j ∈ (Layer.object (s.plantEntries es).2).below, j.In ((s.plantEntries es).1.upTo Q)
  | [] => ⟨.refl h,by simp [plantEntries,Layer.below]⟩
  | (k,x) :: rest => by
    obtain ⟨hi,hx⟩ := plant_inside hQ h x
    obtain ⟨hr,hb⟩ := plantEntries_inside (fun id hid => hQ id (Nat.le_trans hi.size_le hid))
      hi.region rest
    refine ⟨hi.trans hr,?_⟩
    simp only [plantEntries,Layer.below,List.map_cons]
    exact List.forall_mem_cons.2 ⟨hr.mem hx,hb⟩

end

/-- The documents that are written in place share nothing with what is protected: `P` holds the
protected containers, and some region apart from it holds the documents. -/
structure Guarded (P : Nat → Prop) (roots : List Item) (s : Store) : Prop where
  sealed : s.Region P
  apart : ∃ Q, s.Region Q ∧ (∀ i ∈ roots, i.In Q) ∧ ∀ id, P id → ¬ Q id

/-- A change that leaves protected containers as they are, and apart from the documents. -/
def Spares (P : Nat → Prop) (roots : List Item) (s s' : Store) : Prop :=
  s.Guarded P roots → s'.Guarded P roots ∧ s.Agrees P s'

instance (P : Nat → Prop) (roots : List Item) : IsPreorder Store (Spares P roots) where
  refl s h := ⟨h,.refl P s⟩
  trans _ _ _ h h' hg := by
    obtain ⟨hg',ha⟩ := h hg
    obtain ⟨hg'',ha'⟩ := h' hg'
    exact ⟨hg'',ha.trans ha'⟩

theorem Grows.spares {P : Nat → Prop} {roots : List Item} (h : s.Grows s') :
    s.Spares P roots s' := by
  rintro ⟨hP,Q,hQ,hr,hd⟩
  exact ⟨⟨hP.of_agrees (hP.agrees h),Q,hQ.of_agrees (hQ.agrees h),hr,hd⟩,hP.agrees h⟩

/-- What stays in the documents' own containers and new ones leaves everything else alone, and what
it finds or makes there is apart as well. -/
theorem Guarded.of_inside {P : Nat → Prop} {roots : List Item} (hg : s.Guarded P roots)
    (more : List Item) (h : ∀ Q, s.Region (s.upTo Q) → (∀ id, s.cells.size ≤ id → Q id) →
      (∀ i ∈ roots, i.In (s.upTo Q)) → Inside Q s s' ∧ ∀ i ∈ more, i.In (s'.upTo Q)) :
    s'.Guarded P (more ++ roots) ∧ s.Agrees P s' := by
  obtain ⟨hP,Q,hQ,hr,hd⟩ := hg
  have hroots : ∀ i ∈ roots, i.In (s.upTo (s.withNew Q)) := fun i hi => hQ.mem_withNew (hr i hi)
  obtain ⟨hi,hmore⟩ := h (s.withNew Q) hQ.withNew (fun id hid => .inr hid) hroots
  have ha : s.Agrees P s' := fun id hid => hi.outside id (hP.not_withNew hd hid)
  refine ⟨⟨hP.of_agrees ha,s'.upTo (s.withNew Q),hi.region,fun i hir => ?_,?_⟩,ha⟩
  · exact (List.mem_append.1 hir).elim (hmore i) fun hir => hi.mem (hroots i hir)
  · exact fun id hid hq => hP.not_withNew hd hid hq.1

end Store

end StepGraph
