import StepGraph.Proofs.Keys
import StepGraph.Proofs.Reach

/-!
Trees in containers of their own, into which containers of other documents may hang. Owned trees
have no container in common, so a write into one of them leaves all others alone; and a write into
one of them is the write into the tree that it stands for, as long as it goes through no container
of another document.
-/
namespace StepGraph

namespace Entries

variable {α β : Type}

theorem put_map (f : α → β) (es : Entries α) (k : String) (x : α) :
    put (es.map fun e => (e.1,f e.2)) k (f x) = (es.put k x).map fun e => (e.1,f e.2) := by
  induction es with
  | nil => rfl
  | cons e es ih =>
    simp only [List.map_cons,put]
    split
    · rfl
    · rw [ih]
      rfl

theorem put_split {es : Entries α} {k : String} {x : α} (h : es.get? k = some x) :
    ∃ before after, es = before ++ (k,x) :: after ∧
      ∀ y, es.put k y = before ++ (k,y) :: after := by
  induction es with
  | nil => cases h
  | cons e es ih =>
    obtain ⟨k',x'⟩ := e
    unfold get? at h
    unfold put
    split at h
    · rename_i hk
      cases h
      exact ⟨[],es,by rw [hk]; rfl,fun y => by rw [if_pos hk,hk]; rfl⟩
    · rename_i hk
      obtain ⟨before,after,rfl,hput⟩ := ih h
      exact ⟨(k',x') :: before,after,rfl,fun y => by rw [if_neg hk,hput]; rfl⟩

theorem put_put (es : Entries α) (k : String) (x y : α) : (es.put k x).put k y = es.put k y := by
  induction es with
  | nil => simp [put]
  | cons e es ih => by_cases hk : k = e.1 <;> simp [put,hk,ih]

end Entries

namespace Store

variable {s s' : Store} {P : Nat → Prop} {i : Item} {v : Value}

def TellsIn (s : Store) (P : Nat → Prop) (i : Item) (v : Value) : Prop := i.In P ∧ s.Tells i v

theorem TellsIn.of_agrees (h : s.TellsIn P i v) (hP : s.Region P) (ha : s.Agrees P s') :
    s'.TellsIn P i v := by
  obtain ⟨hi,d,-,hd⟩ := h
  exact ⟨hi,tells_of_readTo (hP.readTo_mono ha (Nat.le_refl d) hi hd)⟩

theorem TellsIn.mono {Q : Nat → Prop} (h : s.TellsIn P i v) (hQ : ∀ id, P id → Q id) :
    s.TellsIn Q i v := ⟨h.1.mono hQ,h.2⟩

theorem tellsIn_mirrors (h : s.Encloses P) : s.access.Mirrors Value.access (s.TellsIn P) where
  leaf a := ⟨trivial,(tells_mirrors s).leaf a⟩
  tree x v hx := (tells_mirrors s).tree x v hx.2
  layer x v hx := by
    have hb := h.below hx.1
    have hl := (tells_mirrors s).layer x v hx.2
    change Layer.Rel _ (s.layer x) v.layer at hl ⊢
    revert hb hl
    generalize s.layer x = l, v.layer = m
    intro hb hl
    cases hl with
    | scalar a => exact .scalar a
    | list items => exact .list ((List.forall₂_and_left _ _).2 ⟨hb,items⟩)
    | @object es fs entries =>
      have hin : ∀ e ∈ es, e.2.In P := List.forall_mem_map.1 hb
      refine .object (((List.forall₂_and_left _ _).2 ⟨hin,entries⟩).imp fun e f he => ?_)
      exact ⟨he.2.1,he.1,he.2.2⟩

end Store

/-- A tree in containers of its own. A guest is a container of another document, with the tree that
it spells. -/
inductive Owned where
  | leaf (a : Scalar)
  | guest (id : Nat) (v : Value)
  | list (id : Nat) (items : List Owned)
  | object (id : Nat) (entries : List (String × Owned))

namespace Owned

theorem entry_lt {id : Nat} {es : List (String × Owned)} {e : String × Owned} (h : e ∈ es) :
    sizeOf e.2 < sizeOf (object id es) := by
  have hlt := List.sizeOf_lt_of_mem h
  obtain ⟨k,o⟩ := e
  simp only [Prod.mk.sizeOf_spec,object.sizeOf_spec] at hlt ⊢
  omega

def item : Owned → Item
  | leaf a => .leaf a
  | guest id _ => .cell id
  | list id _ => .cell id
  | object id _ => .cell id

def tree : Owned → Value
  | leaf a => .scalar a
  | guest _ v => v
  | list _ os => .list (os.map tree)
  | object _ es => .object (es.map fun e => (e.1,e.2.tree))
decreasing_by
  · decreasing_tactic
  · exact entry_lt ‹_›

def ids : Owned → List Nat
  | leaf _ => []
  | guest _ _ => []
  | list id os => id :: os.flatMap ids
  | object id es => id :: es.flatMap fun e => e.2.ids
decreasing_by
  · decreasing_tactic
  · exact entry_lt ‹_›

abbrev roots (es : List (String × Owned)) : List Owned := es.map Prod.snd

theorem ids_object (id : Nat) (es : List (String × Owned)) :
    (object id es).ids = id :: (roots es).flatMap ids := by
  rw [ids,List.flatMap_map]

/-- All its containers stand in the store, guests in a region. -/
inductive StoredIn (s : Store) (P : Nat → Prop) : Owned → Prop
  | leaf (a : Scalar) : StoredIn s P (.leaf a)
  | guest {id : Nat} {v : Value} (tells : s.TellsIn P (.cell id) v) : StoredIn s P (.guest id v)
  | list {id : Nat} {os : List Owned} (cell : s.cells[id]? = some (.list (os.map item)))
      (items : ∀ o ∈ os, StoredIn s P o) : StoredIn s P (.list id os)
  | object {id : Nat} {es : List (String × Owned)}
      (cell : s.cells[id]? = some (.object (es.map fun e => (e.1,e.2.item))))
      (entries : ∀ o ∈ roots es, StoredIn s P o) : StoredIn s P (.object id es)

variable {s s' s'' : Store} {P : Nat → Prop} {o : Owned} {os os' os'' : List Owned}

theorem StoredIn.lt (h : o.StoredIn s P) : ∀ id ∈ o.ids, id < s.cells.size := by
  induction h with
  | leaf a => simp [ids]
  | guest tells => simp [ids]
  | list cell _ ih =>
    rw [ids]
    refine List.forall_mem_cons.2 ⟨(Array.getElem?_eq_some_iff.1 cell).1,fun id hid => ?_⟩
    obtain ⟨o,ho,hid⟩ := List.mem_flatMap.1 hid
    exact ih o ho id hid
  | object cell _ ih =>
    rw [ids_object]
    refine List.forall_mem_cons.2 ⟨(Array.getElem?_eq_some_iff.1 cell).1,fun id hid => ?_⟩
    obtain ⟨o,ho,hid⟩ := List.mem_flatMap.1 hid
    exact ih o ho id hid

theorem StoredIn.frame (h : o.StoredIn s P) (hP : s.Region P) (ha : s.Agrees P s')
    (hown : ∀ id ∈ o.ids, s'.cells[id]? = s.cells[id]?) : o.StoredIn s' P := by
  induction h with
  | leaf a => exact .leaf a
  | guest tells => exact .guest (tells.of_agrees hP ha)
  | list cell _ ih =>
    rw [ids] at hown
    obtain ⟨hid,hrest⟩ := List.forall_mem_cons.1 hown
    refine .list (hid.trans cell) fun o ho => ih o ho fun id hid => ?_
    exact hrest id (List.mem_flatMap_of_mem ho hid)
  | object cell _ ih =>
    rw [ids_object] at hown
    obtain ⟨hid,hrest⟩ := List.forall_mem_cons.1 hown
    refine .object (hid.trans cell) fun o ho => ih o ho fun id hid => ?_
    exact hrest id (List.mem_flatMap_of_mem ho hid)

/-- Trees that stand in the store and have no container in common, each outside the region of the
guests. -/
structure Held (P : Nat → Prop) (s : Store) (os : List Owned) : Prop where
  region : s.Region P
  stands : ∀ o ∈ os, o.StoredIn s P
  nodup : (os.flatMap ids).Nodup
  own : ∀ id ∈ os.flatMap ids, ¬P id

namespace Held

theorem lt (h : Held P s os) : ∀ id ∈ os.flatMap ids, id < s.cells.size := by
  intro id hid
  obtain ⟨o,ho,hid⟩ := List.mem_flatMap.1 hid
  exact (h.stands o ho).lt id hid

theorem frame (h : Held P s os) (ha : s.Agrees P s')
    (hown : ∀ id ∈ os.flatMap ids, s'.cells[id]? = s.cells[id]?) : Held P s' os where
  region := h.region.of_agrees ha
  stands o ho :=
    (h.stands o ho).frame h.region ha fun id hid => hown id (List.mem_flatMap_of_mem ho hid)
  nodup := h.nodup
  own := h.own

theorem grows (h : Held P s os) (hg : s.Grows s') : Held P s' os := by
  refine h.frame (h.region.agrees hg) fun id hid => ?_
  have hc := Array.getElem?_eq_getElem (h.lt id hid)
  rw [hc,hg id _ hc]

theorem left (h : Held P s (os ++ os')) : Held P s os where
  region := h.region
  stands o ho := h.stands o (List.mem_append_left _ ho)
  nodup := by
    have hn := h.nodup
    rw [List.flatMap_append] at hn
    exact (List.nodup_append.1 hn).1
  own id hid := h.own id (by rw [List.flatMap_append]; exact List.mem_append_left _ hid)

theorem right (h : Held P s (os ++ os')) : Held P s os' where
  region := h.region
  stands o ho := h.stands o (List.mem_append_right _ ho)
  nodup := by
    have hn := h.nodup
    rw [List.flatMap_append] at hn
    exact (List.nodup_append.1 hn).2.1
  own id hid := h.own id (by rw [List.flatMap_append]; exact List.mem_append_right _ hid)

theorem apart (h : Held P s (os ++ os')) :
    ∀ id ∈ os.flatMap ids, id ∉ os'.flatMap ids := by
  have hn := h.nodup
  rw [List.flatMap_append] at hn
  intro id hid hid'
  exact (List.nodup_append.1 hn).2.2 id hid id hid' rfl

theorem append (h : Held P s os) (h' : Held P s os')
    (hd : ∀ id ∈ os.flatMap ids, id ∉ os'.flatMap ids) : Held P s (os ++ os') where
  region := h.region
  stands o ho := (List.mem_append.1 ho).elim (h.stands o) (h'.stands o)
  nodup := by
    rw [List.flatMap_append]
    exact List.nodup_append.2 ⟨h.nodup,h'.nodup,fun id hid id' hid' he => hd id hid (he ▸ hid')⟩
  own id hid := by
    rw [List.flatMap_append] at hid
    exact (List.mem_append.1 hid).elim (h.own id) (h'.own id)

end Held

/-- Trees became others: only their own containers were written, and those that are new. -/
structure Update (P : Nat → Prop) (s : Store) (os : List Owned) (s' : Store) (os' : List Owned) :
    Prop where
  size_le : s.cells.size ≤ s'.cells.size
  outside : ∀ id < s.cells.size, id ∉ os.flatMap ids → s'.cells[id]? = s.cells[id]?
  fresh : ∀ id ∈ os'.flatMap ids, id ∈ os.flatMap ids ∨ s.cells.size ≤ id
  held : Held P s' os'

namespace Update

theorem refl (h : Held P s os) : Update P s os s os :=
  ⟨Nat.le_refl _,fun _ _ _ => rfl,fun _ hid => .inl hid,h⟩

theorem trans (h : Update P s os s' os') (h' : Update P s' os' s'' os'') :
    Update P s os s'' os'' where
  size_le := Nat.le_trans h.size_le h'.size_le
  outside id hlt hid := by
    have hid' : id ∉ os'.flatMap ids := fun hm =>
      (h.fresh id hm).elim hid fun hle => Nat.not_lt.2 hle hlt
    exact (h'.outside id (Nat.lt_of_lt_of_le hlt h.size_le) hid').trans (h.outside id hlt hid)
  fresh id hid :=
    (h'.fresh id hid).elim (h.fresh id) fun hle => .inr (Nat.le_trans h.size_le hle)
  held := h'.held

theorem guests (h : Update P s os s' os') (ho : Held P s os) : s.Agrees P s' := fun id hid =>
  h.outside id (ho.region.bounded id hid) fun hm => ho.own id hm hid

theorem others (h : Update P s os s' os') (ho : Held P s os) {rest : List Owned}
    (hr : Held P s rest) (hd : ∀ id ∈ rest.flatMap ids, id ∉ os.flatMap ids) : Held P s' rest :=
  hr.frame (h.guests ho) fun id hid => h.outside id (hr.lt id hid) (hd id hid)

theorem apart (h : Update P s os s' os') {rest : List Owned} (hr : Held P s rest)
    (hd : ∀ id ∈ rest.flatMap ids, id ∉ os.flatMap ids) :
    ∀ id ∈ rest.flatMap ids, id ∉ os'.flatMap ids := fun id hid hm =>
  (h.fresh id hm).elim (hd id hid) fun hle => Nat.not_lt.2 hle (hr.lt id hid)

theorem among {before after : List Owned} (hall : Held P s (before ++ os ++ after))
    (h : Update P s os s' os') :
    Update P s (before ++ os ++ after) s' (before ++ os' ++ after) := by
  have ho := hall.left.right
  have hb := hall.left.apart
  have hba : ∀ id ∈ before.flatMap ids, id ∉ after.flatMap ids := fun id hid =>
    hall.apart id (by rw [List.flatMap_append]; exact List.mem_append_left _ hid)
  have ha : ∀ id ∈ after.flatMap ids, id ∉ os.flatMap ids := fun id hid hm =>
    hall.apart id (by rw [List.flatMap_append]; exact List.mem_append_right _ hm) hid
  have before' := h.others ho hall.left.left hb
  have after' := h.others ho hall.right ha
  refine ⟨h.size_le,fun id hlt hid => h.outside id hlt fun hm => hid ?_,fun id hid => ?_,?_⟩
  · simp only [List.flatMap_append,List.mem_append]
    exact .inl (.inr hm)
  · simp only [List.flatMap_append,List.mem_append] at hid ⊢
    rcases hid with (hid | hid) | hid
    · exact .inl (.inl (.inl hid))
    · exact (h.fresh id hid).imp_left fun hm => .inl (.inr hm)
    · exact .inl (.inr hid)
  · refine (before'.append h.held (h.apart hall.left.left hb)).append after' fun id hid hm => ?_
    simp only [List.flatMap_append,List.mem_append] at hid
    rcases hid with hid | hid
    · exact hba id hid hm
    · exact h.apart hall.right ha id hm hid

theorem rest {o₁ : Owned} (hall : Held P s (o :: os)) (h : Update P s [o] s' [o₁]) :
    Held P s' os :=
  (show Update P s ([] ++ [o] ++ os) s' ([] ++ [o₁] ++ os) from among hall h).held.right

theorem cons {os₂ : List Owned} {o₁ : Owned} (hall : Held P s (o :: os))
    (h : Update P s [o] s' [o₁]) (h' : Update P s' os s'' os₂) :
    Update P s (o :: os) s'' (o₁ :: os₂) := by
  have first : Update P s (o :: os) s' (o₁ :: os) :=
    show Update P s ([] ++ [o] ++ os) s' ([] ++ [o₁] ++ os) from among hall h
  have second : Update P s' ([o₁] ++ os ++ []) s'' ([o₁] ++ os₂ ++ []) :=
    among (by rw [List.append_nil]; exact first.held) h'
  rw [List.append_nil,List.append_nil] at second
  exact first.trans second

end Update

theorem mapM_eq_map {α β : Type} {f : α → Option β} {g : α → β} {xs : List α}
    (h : ∀ x ∈ xs, f x = some (g x)) : xs.mapM f = some (xs.map g) := by
  induction xs with
  | nil => rfl
  | cons x xs ih =>
    obtain ⟨hx,hxs⟩ := List.forall_mem_cons.1 h
    rw [List.mapM_cons,hx,ih hxs]
    rfl

theorem StoredIn.tells (h : o.StoredIn s P) : s.Tells o.item o.tree := by
  have whole {i : Item} {v : Value} (h : s.Tells i v) : s.readTo (s.cells.size + 1) i = some v := by
    obtain ⟨d,hd,hr⟩ := h
    exact Store.readTo_le hd hr
  induction h with
  | leaf a =>
    rw [tree]
    exact (Store.tells_mirrors s).leaf a
  | guest tells =>
    rw [tree]
    exact tells.2
  | @list id os cell _ ih =>
    have parts : (os.map item).mapM (s.readTo (s.cells.size + 1)) = some (os.map tree) := by
      rw [List.mapM_map]
      exact mapM_eq_map fun o ho => whole (ih o ho)
    have hread : s.readTo (s.cells.size + 1 + 1) (.cell id) = some (.list (os.map tree)) := by
      unfold Store.readTo
      simp only [Store.layer,cell,Cell.layer,parts,Option.map_some]
    rw [tree]
    exact Store.tells_of_readTo hread
  | @object id es cell _ ih =>
    have fields : (es.map fun e => (e.1,e.2.item)).mapM
        (Store.readEntry (s.readTo (s.cells.size + 1))) =
          some (es.map fun e => (e.1,e.2.tree)) := by
      rw [List.mapM_map]
      refine mapM_eq_map fun e he => ?_
      simp only [Function.comp,Store.readEntry,whole (ih e.2 (List.mem_map_of_mem he)),
        Option.map_some]
    have hread : s.readTo (s.cells.size + 1 + 1) (.cell id) =
        some (.object (es.map fun e => (e.1,e.2.tree))) := by
      unfold Store.readTo
      simp only [Store.layer,cell,Cell.layer,fields,Option.map_some]
    rw [tree]
    exact Store.tells_of_readTo hread

theorem Held.tells (h : Held P s os) (ho : o ∈ os) : s.Tells o.item o.tree := (h.stands o ho).tells

end Owned

end StepGraph
