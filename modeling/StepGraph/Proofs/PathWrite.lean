import StepGraph.Proofs.HeapWrite

/-!
Writes at a path, place by place. A write goes down through containers that are there and through
new ones; it changes one container of those that were there, and none above it when the store has a
tree for where it began.
-/
namespace StepGraph

namespace Layer

variable {α : Type}

theorem getElem?_setPadded (pad : α) (xs : List α) (i : Nat) (x : α) :
    (setPadded pad xs i x)[i]? = some x := by
  unfold setPadded
  rw [List.getElem?_set_self]
  simp
  omega

theorem child?_list {xs : List α} {part : String} {o : Option α}
    (h : (list xs).child? part = .ok o) :
    Text.isFigures part = true ∧ ∃ n, placeOf part = .ok n ∧ o = xs[n]? := by
  simp only [child?] at h
  split at h
  · rename_i hf
    cases hn : placeOf part with
    | error f =>
      rw [hn] at h
      cases h
    | ok n =>
      rw [hn] at h
      exact ⟨hf,n,rfl,(Except.ok.inj h).symm⟩
  · cases h

theorem assign_list {xs : List α} {l' : Layer α} {part : String} {pad x : α}
    (h : (list xs).assign pad part x = .ok l') :
    Text.isFigures part = true ∧ ∃ n, placeOf part = .ok n ∧ l' = .list (setPadded pad xs n x) := by
  simp only [assign] at h
  split at h
  · rename_i hf
    cases hn : placeOf part with
    | error f =>
      rw [hn] at h
      cases h
    | ok n =>
      rw [hn] at h
      exact ⟨hf,n,rfl,(Except.ok.inj h).symm⟩
  · cases h

theorem assign_of_child? {l : Layer α} {part : String} {o : Option α} (h : l.child? part = .ok o)
    (pad x : α) : ∃ l', l.assign pad part x = .ok l' := by
  cases l with
  | scalar a => cases h
  | object es => exact ⟨_,rfl⟩
  | list xs =>
    obtain ⟨hf,n,hn,-⟩ := child?_list h
    exact ⟨.list (setPadded pad xs n x),by simp [assign,hf,hn,Except.map]⟩

theorem isContainer_of_child? {l : Layer α} {part : String} {o : Option α}
    (h : l.child? part = .ok o) : l.isContainer = true := by
  cases l with
  | scalar a => cases h
  | _ => rfl

theorem isContainer_fresh (next : String) : (fresh next : Layer α).isContainer = true := by
  unfold fresh
  split <;> rfl

theorem isContainer_assign {l l' : Layer α} {part : String} {pad x : α}
    (h : l.assign pad part x = .ok l') : l'.isContainer = true := by
  cases l with
  | scalar a => cases h
  | object es =>
    cases h
    rfl
  | list xs =>
    obtain ⟨-,n,-,rfl⟩ := assign_list h
    rfl

end Layer

namespace Store

variable {s s' : Store} {i j x : Item} {P : Nat → Prop}

theorem cell_of_isContainer (h : (s.layer i).isContainer = true) :
    ∃ id, i = .cell id ∧ id < s.cells.size := by
  cases i with
  | leaf a => cases h
  | cell id =>
    refine ⟨id,rfl,?_⟩
    refine Nat.lt_of_not_le fun hn => ?_
    rw [layer,Array.getElem?_eq_none hn] at h
    cases h

theorem isContainer_of_isObject (h : s.isObject i = true) : s.isContainer i = true := by
  have hl : s.view.layer i = s.layer i := rfl
  rw [isObject,View.isObject,hl] at h
  unfold isContainer
  cases hi : s.layer i with
  | object es => rfl
  | _ =>
    rw [hi] at h
    cases h

theorem layer_cell_ne_text {id : Nat} (t : String) : s.layer (.cell id) ≠ .scalar (.text t) := by
  simp only [layer]
  cases s.cells[id]? with
  | none => simp
  | some c => cases c <;> simp [Cell.layer]

theorem layer_eq_of_cells {id : Nat} (h : s'.cells[id]? = s.cells[id]?) :
    s'.layer (.cell id) = s.layer (.cell id) := by simp only [layer,h]

theorem Grows.layer_of_isContainer (hg : s.Grows s') (h : s.isContainer i = true) :
    s'.layer i = s.layer i := by
  obtain ⟨id,rfl,hid⟩ := cell_of_isContainer h
  have hcell := Array.getElem?_eq_getElem hid
  exact layer_eq_of_cells ((hg _ _ hcell).trans hcell.symm)

theorem field_of_layer {es : Entries Item} (h : s.layer i = .object es) (k : String) :
    s.field i k = (es.get? k).getD .null := by
  simp only [field,View.field,View.child?,View.null,view,h]

theorem setCell_layer {id : Nat} (h : id < s.cells.size) (c : Cell) :
    (s.setCell id c).layer (.cell id) = c.layer ∧ (s.setCell id c).cells.size = s.cells.size ∧
      ∀ k, k ≠ id → (s.setCell id c).cells[k]? = s.cells[k]? := by
  refine ⟨by simp [layer,setCell,h],by simp [setCell],fun k hk => ?_⟩
  simp only [setCell,Array.getElem?_setIfInBounds]
  rw [if_neg hk.symm]

theorem alloc_layer (s : Store) (c : Cell) :
    (s.alloc c).1.cells.size = s.cells.size + 1 ∧ (s.alloc c).1.layer (s.alloc c).2 = c.layer ∧
      ∀ k, k < s.cells.size → (s.alloc c).1.cells[k]? = s.cells[k]? := by
  refine ⟨by simp [alloc],by simp [layer,alloc],fun k hk => ?_⟩
  simp only [alloc,Array.getElem?_push]
  rw [if_neg (by omega)]

theorem assign_cases (s : Store) (i : Item) (part : String) (x : Item) :
    (∃ f, s.assign i part x = (s,some f)) ∨
    ∃ id s', i = .cell id ∧ id < s.cells.size ∧ s.assign i part x = (s',none) ∧
      (s.layer i).assign .null part x = .ok (s'.layer i) ∧ s'.cells.size = s.cells.size ∧
      ∀ k, k ≠ id → s'.cells[k]? = s.cells[k]? := by
  unfold assign
  cases ha : (s.layer i).assign .null part x with
  | error f => exact .inl ⟨f,rfl⟩
  | ok l =>
    have hc : (s.layer i).isContainer = true := by
      cases hl : s.layer i with
      | scalar a =>
        rw [hl] at ha
        cases ha
      | _ => rfl
    obtain ⟨id,rfl,hid⟩ := cell_of_isContainer hc
    have hl := Layer.isContainer_assign ha
    cases l with
    | scalar a => cases hl
    | list xs =>
      obtain ⟨hset,hsame⟩ := setCell_layer hid (.list xs)
      exact .inr ⟨id,_,rfl,hid,rfl,congrArg Except.ok hset.symm,hsame⟩
    | object es =>
      obtain ⟨hset,hsame⟩ := setCell_layer hid (.object es)
      exact .inr ⟨id,_,rfl,hid,rfl,congrArg Except.ok hset.symm,hsame⟩

theorem allocLayer_fresh (s : Store) (next : String) :
    ∃ c : Cell, c.layer = Layer.fresh next ∧ s.allocLayer (Layer.fresh next) = s.alloc c := by
  unfold Layer.fresh
  split
  · exact ⟨.list [],rfl,rfl⟩
  · exact ⟨.object [],rfl,rfl⟩

/-- A container that a write puts before a place: it is new, it is empty, and it stands at a part of
a container that is changed in nothing else. -/
structure Puts (s : Store) (i : Item) (part next : String) (s' : Store) : Prop where
  size : s'.cells.size = s.cells.size + 1
  fresh : s'.layer (.cell s.cells.size) = Layer.fresh next
  put : (s.layer i).assign .null part (.cell s.cells.size) = .ok (s'.layer i)
  same : ∀ k, k < s.cells.size → i ≠ .cell k → s'.cells[k]? = s.cells[k]?

theorem writeAt_cases (s : Store) (i : Item) (part next : String) (rest : List String) (x : Item) :
    (∃ f, (s.layer i).child? part = .error f ∧
      s.writeAt i (part :: next :: rest) x = (s,some f)) ∨
    (∃ j, (s.layer i).child? part = .ok (some j) ∧ s.isContainer j = true ∧
      s.writeAt i (part :: next :: rest) x = s.writeAt j (next :: rest) x) ∨
    ∃ o s', (s.layer i).child? part = .ok o ∧ o.filter s.isContainer = none ∧
      s.Puts i part next s' ∧
      s.writeAt i (part :: next :: rest) x = s'.writeAt (.cell s.cells.size) (next :: rest) x := by
  rw [writeAt]
  cases hc : (s.layer i).child? part with
  | error f => exact .inl ⟨f,rfl,rfl⟩
  | ok o =>
    cases hf : o.filter s.isContainer with
    | some j =>
      obtain ⟨rfl,hj⟩ := Option.filter_eq_some_iff.1 hf
      exact .inr (.inl ⟨j,rfl,hj,by simp only [hf]⟩)
    | none =>
      obtain ⟨c,hl,hm⟩ := s.allocLayer_fresh next
      obtain ⟨hsize,hnew,hold⟩ := s.alloc_layer c
      obtain ⟨id,rfl,hid⟩ := cell_of_isContainer (Layer.isContainer_of_child? hc)
      obtain ⟨l,hassign⟩ := Layer.assign_of_child? hc .null (s.alloc c).2
      rw [← layer_eq_of_cells (hold id hid)] at hassign
      rcases (s.alloc c).1.assign_cases (.cell id) part (s.alloc c).2 with
        ⟨f,ha⟩ | ⟨id',s',hi,-,ha,hput,hs',hsame⟩
      · simp only [assign,hassign] at ha
        cases (Prod.mk.inj ha).2
      · cases hi
        refine .inr (.inr ⟨o,s',rfl,hf,⟨hs'.trans hsize,?_,?_,fun k hk hne => ?_⟩,?_⟩)
        · rw [layer_eq_of_cells (hsame _ (Nat.ne_of_gt hid))]
          exact hnew.trans hl
        · rw [← layer_eq_of_cells (hold id hid)]
          exact hput
        · exact (hsame k fun he => hne (congrArg Item.cell he.symm)).trans (hold k hk)
        · simp only [hf,hm,ha]
          rfl

theorem Encloses.child {part : String} (h : s.Encloses P) (hi : i.In P)
    (hj : (s.layer i).child? part = .ok (some j)) : j.In P := by
  obtain ⟨id,rfl,hid⟩ := cell_of_isContainer (Layer.isContainer_of_child? hj)
  have hc := Array.getElem?_eq_getElem hid
  have hl : s.layer (.cell id) = s.cells[id].layer := by simp [layer,hc]
  rw [hl] at hj
  exact h id _ hi hc j (Layer.child?_below hj)

/-- A new container is empty, so nothing leads out of it. -/
theorem Puts.encloses_new {part next : String} (h : s.Puts i part next s') :
    s'.Encloses (· = s.cells.size) := by
  rintro id c rfl hc
  have hl : s'.layer (.cell s.cells.size) = c.layer := by simp [layer,hc]
  rw [← hl,h.fresh,fresh_below]
  simp

/-- A write reaches what its container leads to, and new containers; nothing else changes. -/
theorem writeAt_encloses (parts : List String) (hP : s.Encloses P) (hi : i.In P) :
    s.cells.size ≤ (s.writeAt i parts x).1.cells.size ∧
      ∀ k, k < s.cells.size → ¬ P k → (s.writeAt i parts x).1.cells[k]? = s.cells[k]? := by
  induction parts generalizing s i P with
  | nil => exact ⟨Nat.le_refl _,fun _ _ _ => rfl⟩
  | cons part rest ih =>
    cases rest with
    | nil =>
      unfold writeAt
      rcases s.assign_cases i part x with ⟨f,ha⟩ | ⟨id,s',rfl,-,ha,-,hs,hk⟩ <;> rw [ha]
      · exact ⟨Nat.le_refl _,fun _ _ _ => rfl⟩
      · exact ⟨Nat.le_of_eq hs.symm,fun k _ hn => hk k fun he => hn (he ▸ hi)⟩
    | cons next rest =>
      rcases s.writeAt_cases i part next rest x with ⟨f,-,hw⟩ | ⟨j,hj,-,hw⟩ | ⟨o,s',hc,-,hp,hw⟩ <;>
        rw [hw]
      · exact ⟨Nat.le_refl _,fun _ _ _ => rfl⟩
      · exact ih hP (hP.child hi hj)
      · obtain ⟨hsize,hsame⟩ := ih hp.encloses_new (i := .cell s.cells.size) rfl
        rw [hp.size] at hsize hsame
        refine ⟨Nat.le_of_succ_le hsize,fun k hk hn => ?_⟩
        rw [hsame k (Nat.lt_succ_of_lt hk) (Nat.ne_of_lt hk)]
        exact hp.same k hk fun he => hn (by rw [he] at hi; exact hi)

theorem readTo_succ {d : Nat} {v : Value} (h : s.readTo d i = some v) :
    s.readTo (d + 1) i = some v := by
  induction d generalizing i v with
  | zero => cases h
  | succ d ih =>
    unfold readTo at h ⊢
    cases hl : s.layer i with
    | scalar a =>
      rw [hl] at h
      exact h
    | list xs =>
      rw [hl] at h
      obtain ⟨ys,hys,rfl⟩ := Option.map_eq_some_iff.1 h
      exact Option.map_eq_some_iff.2 ⟨ys,mapM_some_mono (fun x _ y hy => ih hy) hys,rfl⟩
    | object es =>
      rw [hl] at h
      obtain ⟨ys,hys,rfl⟩ := Option.map_eq_some_iff.1 h
      refine Option.map_eq_some_iff.2 ⟨ys,mapM_some_mono ?_ hys,rfl⟩
      intro e _ y hy
      obtain ⟨w,hw,rfl⟩ := Option.map_eq_some_iff.1 hy
      exact Option.map_eq_some_iff.2 ⟨w,ih hw,rfl⟩

/-- An item has a tree of some depth. -/
def Readable (s : Store) (d : Nat) (i : Item) : Prop := ∃ v, s.readTo d i = some v

theorem mapM_some_mem {α β : Type} {f : α → Option β} {xs : List α} {ys : List β}
    (h : xs.mapM f = some ys) : ∀ x ∈ xs, ∃ y, f x = some y := by
  induction xs generalizing ys with
  | nil => simp
  | cons x xs ih =>
    simp only [List.mapM_cons,Option.bind_eq_bind,Option.bind_eq_some_iff,Option.pure_def,
      Option.some.injEq] at h
    obtain ⟨y,hy,zs,hzs,-⟩ := h
    exact List.forall_mem_cons.2 ⟨⟨y,hy⟩,ih hzs⟩

theorem Readable.below {d : Nat} (h : s.Readable (d + 1) i) :
    ∀ j ∈ (s.layer i).below, s.Readable d j := by
  obtain ⟨v,h⟩ := h
  unfold readTo at h
  cases hl : s.layer i with
  | scalar a => simp [Layer.below]
  | list xs =>
    rw [hl] at h
    obtain ⟨ys,hys,-⟩ := Option.map_eq_some_iff.1 h
    exact mapM_some_mem hys
  | object es =>
    rw [hl] at h
    obtain ⟨ys,hys,-⟩ := Option.map_eq_some_iff.1 h
    intro j hj
    obtain ⟨e,he,rfl⟩ := List.mem_map.1 hj
    obtain ⟨y,hy⟩ := mapM_some_mem hys e he
    obtain ⟨v,hv,-⟩ := Option.map_eq_some_iff.1 hy
    exact ⟨v,hv⟩

theorem Readable.least {d : Nat} (h : s.Readable d i) :
    ∃ n, s.Readable (n + 1) i ∧ ¬ s.Readable n i := by
  induction d with
  | zero =>
    obtain ⟨v,hv⟩ := h
    cases hv
  | succ d ih =>
    by_cases hd : s.Readable d i
    · exact ih hd
    · exact ⟨d,h,hd⟩

theorem encloses_readable (s : Store) (d : Nat) : s.Encloses fun id => s.Readable d (.cell id) := by
  intro id c hid hc j hj
  cases d with
  | zero =>
    obtain ⟨v,hv⟩ := hid
    cases hv
  | succ d =>
    have hl : s.layer (.cell id) = c.layer := by simp [layer,hc]
    obtain ⟨v,hv⟩ := hid.below j (hl ▸ hj)
    cases j with
    | leaf a => trivial
    | cell k => exact ⟨v,readTo_succ hv⟩

theorem Readable.in_encloses {d : Nat} (h : s.Readable d j) :
    j.In fun id => s.Readable d (.cell id) := by
  cases j with
  | leaf a => trivial
  | cell id => exact h

theorem writeAt_above {n : Nat} (hj : s.Readable n j) (hi : ¬ s.Readable n i) (parts : List String)
    (x : Item) : (s.writeAt j parts x).1.layer i = s.layer i := by
  cases i with
  | leaf a => rfl
  | cell id =>
    by_cases hid : id < s.cells.size
    · exact layer_eq_of_cells
        ((writeAt_encloses parts (s.encloses_readable n) hj.in_encloses).2 id hid hi)
    · have hl : s.layer (.cell id) = .scalar .null := by
        rw [layer,Array.getElem?_eq_none (Nat.not_lt.1 hid)]
      cases n with
      | zero =>
        obtain ⟨v,hv⟩ := hj
        cases hv
      | succ n => exact absurd ⟨.scalar .null,by simp [readTo,hl]⟩ hi

theorem writeAt_goes {d : Nat} (hd : s.Readable d i) {part next : String} {rest : List String}
    (hw : s.writeAt i (part :: next :: rest) x = (s',none)) :
    (∃ j, (s.layer i).child? part = .ok (some j) ∧ s.isContainer j = true ∧ (∃ d, s.Readable d j) ∧
      s.writeAt j (next :: rest) x = (s',none) ∧ s'.layer i = s.layer i) ∨
    ∃ o s₁, (s.layer i).child? part = .ok o ∧ o.filter s.isContainer = none ∧
      s.Puts i part next s₁ ∧ s₁.writeAt (.cell s.cells.size) (next :: rest) x = (s',none) ∧
      s'.layer i = s₁.layer i := by
  rcases s.writeAt_cases i part next rest x with ⟨f,-,he⟩ | ⟨j,hj,hc,he⟩ | ⟨o,s₁,ho,hf,hp,he⟩
  · cases he.symm.trans hw
  · obtain ⟨n,hn,hnot⟩ := hd.least
    have hbelow := hn.below j (Layer.child?_below hj)
    have hsame := writeAt_above hbelow hnot (next :: rest) x
    rw [← he,hw] at hsame
    exact .inl ⟨j,hj,hc,⟨n,hbelow⟩,he ▸ hw,hsame⟩
  · obtain ⟨id,rfl,hid⟩ := cell_of_isContainer (Layer.isContainer_of_child? ho)
    have hlt : id < s₁.cells.size := by rw [hp.size]; omega
    have hsame := (writeAt_encloses (x := x) (next :: rest) hp.encloses_new
      (i := .cell s.cells.size) rfl).2 id hlt (Nat.ne_of_lt hid)
    rw [← he,hw] at hsame
    exact .inr ⟨o,s₁,ho,hf,hp,he ▸ hw,layer_eq_of_cells hsame⟩

theorem isNull_mono (h : s.view.isNull x = false) (hs : s.cells.size ≤ s'.cells.size) :
    s'.view.isNull x = false := by
  cases x with
  | leaf a => exact h
  | cell k =>
    have hk : k < s.cells.size := by
      refine Nat.lt_of_not_le fun hn => ?_
      have hl : s.layer (.cell k) = .scalar .null := by
        rw [layer,Array.getElem?_eq_none hn]
      simp [View.isNull,view,hl] at h
    have hc := Array.getElem?_eq_getElem (Nat.lt_of_lt_of_le hk hs)
    have hl : s'.layer (.cell k) = s'.cells[k].layer := by simp [layer,hc]
    simp only [View.isNull,view,hl]
    cases s'.cells[k] <;> rfl

theorem size_writeAt (s : Store) (i : Item) (parts : List String) (x : Item) :
    s.cells.size ≤ (s.writeAt i parts x).1.cells.size := by
  have all (j : Item) : j.In fun _ => True := by cases j <;> trivial
  exact (writeAt_encloses parts (fun _ _ _ _ j _ => all j) (all i)).1

theorem readable_empty {l : Layer Item} (hl : s.layer i = l) (hb : l.below = []) : s.Readable 1 i := by
  subst hl
  unfold Readable readTo
  cases hl : s.layer i with
  | scalar a => exact ⟨_,rfl⟩
  | list xs =>
    rw [hl] at hb
    obtain rfl : xs = [] := hb
    exact ⟨_,rfl⟩
  | object es =>
    rw [hl] at hb
    obtain rfl : es = [] := List.map_eq_nil_iff.1 hb
    exact ⟨_,rfl⟩

theorem isNull_eq_false_of_isContainer {l : Layer Item} (hl : s.layer i = l)
    (hc : l.isContainer = true) : s.view.isNull i = false := by
  subst hl
  simp only [View.isNull,view]
  cases hl : s.layer i with
  | scalar a =>
    rw [hl] at hc
    cases hc
  | _ => rfl

theorem writeAt_of_setPath {path : String} {last : Option String}
    (hw : (s.setPath i path x).2 = .ok last) :
    s.writeAt i (Path.places path) x = ((s.setPath i path x).1,none) := by
  unfold setPath at hw ⊢
  rcases he : s.writeAt i (Path.places path) x with ⟨s',_ | f⟩ <;> simp only [he] at hw ⊢
  cases hw

end Store

end StepGraph
