import StepGraph.Proofs.OwnedWrite

/-!
Spots of a tree: where something stands, said by the branches that lead there from the root. A
branch is an entry of an object or an item of a list, so a spot means the same in a plain tree and
in shared containers, whatever text a path has for it.
-/
namespace StepGraph

/-- What leads from a container to one of its parts. -/
inductive Branch where
  | entry (key : String)
  | item (n : Nat)
  deriving DecidableEq

abbrev Spot := List Branch

theorem Spot.split_cons {p q w : Spot} {b c : Branch} (h : b :: w = p ++ c :: q) :
    (p = [] ∧ b = c ∧ w = q) ∨ ∃ p', p = b :: p' ∧ w = p' ++ c :: q :=
  (List.cons_eq_append_iff.1 h).imp_left fun ⟨hp,heq⟩ =>
    ⟨hp,(List.cons.inj heq).1.symm,(List.cons.inj heq).2.symm⟩

def Branch.empty {α : Type} : Branch → Layer α
  | .entry _ => .object []
  | .item _ => .list []

namespace Layer

variable {α : Type} {l l' : Layer α} {part : String} {b b' : Branch} {pad x y : α}

def part? : Layer α → Branch → Option α
  | .object es, .entry k => Entries.get? es k
  | .list xs, .item n => xs[n]?
  | _, _ => none

def set (pad : α) : Layer α → Branch → α → Layer α
  | .object es, .entry k, x => .object (Entries.put es k x)
  | .list xs, .item n, x => .list (setPadded pad xs n x)
  | l, _, _ => l

def branch? : Layer α → String → Option Branch
  | .object _, part => some (.entry part)
  | .list _, part =>
    if Text.isFigures part then (placeOf part).toOption.map Branch.item else none
  | .scalar _, _ => none

theorem getElem?_setPadded_ne {m n : Nat} (h : m ≠ n) (pad : α) (xs : List α) (x : α) :
    (setPadded pad xs n x)[m]? = xs[m]? ∨
      m < n ∧ xs[m]? = none ∧ (setPadded pad xs n x)[m]? = some pad := by
  rw [setPadded,List.getElem?_set_ne h.symm,List.getElem?_append]
  split
  · exact .inl rfl
  · rename_i hm
    have hnone : xs[m]? = none := List.getElem?_eq_none (Nat.le_of_not_lt hm)
    rw [hnone,List.getElem?_replicate]
    split
    · exact .inr ⟨by omega,rfl,rfl⟩
    · exact .inl rfl

theorem setPadded_same {xs : List α} {n : Nat} (h : xs[n]? = some x) (pad : α) :
    setPadded pad xs n x = xs := by
  obtain ⟨hn,rfl⟩ := List.getElem?_eq_some_iff.1 h
  have hnone : n + 1 - xs.length = 0 := by omega
  simp [setPadded,hnone]

theorem child?_eq_ok {o : Option α} :
    l.child? part = .ok o ↔ ∃ b, l.branch? part = some b ∧ l.part? b = o := by
  cases l with
  | scalar a => simp [child?,branch?]
  | object es => simp [child?,branch?,part?]
  | list xs =>
    by_cases hf : Text.isFigures part = true
    · cases hn : placeOf part <;> simp [child?,branch?,part?,hf,hn,Except.map,Except.toOption]
    · simp [child?,branch?,hf]

theorem assign_eq_ok :
    l.assign pad part x = .ok l' ↔ ∃ b, l.branch? part = some b ∧ l' = l.set pad b x := by
  cases l with
  | scalar a => simp [assign,branch?]
  | object es => simp [assign,branch?,set,eq_comm]
  | list xs =>
    by_cases hf : Text.isFigures part = true
    · cases hn : placeOf part <;>
        simp [assign,branch?,set,hf,hn,Except.map,Except.toOption,eq_comm]
    · simp [assign,branch?,hf]

theorem isContainer_of_branch? (h : l.branch? part = some b) : l.isContainer = true := by
  cases l with
  | scalar a => cases h
  | _ => rfl

/-- The kind of a level stays, so its branches do. -/
theorem branch?_set (pad : α) (b : Branch) (x : α) (part : String) :
    (l.set pad b x).branch? part = l.branch? part := by
  cases l <;> cases b <;> rfl

theorem branch?_list {xs : List α} (h : (list xs).branch? part = some b) :
    Text.isFigures part = true ∧ ∃ n, placeOf part = .ok n ∧ b = .item n := by
  simp only [branch?] at h
  split at h
  · rename_i hf
    obtain ⟨n,hn,rfl⟩ := Option.map_eq_some_iff.1 h
    cases hp : placeOf part with
    | error f =>
      rw [hp] at hn
      cases hn
    | ok m =>
      rw [hp] at hn
      cases hn
      exact ⟨hf,n,rfl,rfl⟩
  · cases h

theorem part?_set_self (h : l.branch? part = some b) (pad x : α) :
    (l.set pad b x).part? b = some x := by
  cases l with
  | scalar a => cases h
  | object es =>
    cases h
    exact Entries.get?_put_self es part x
  | list xs =>
    obtain ⟨-,n,-,rfl⟩ := branch?_list h
    exact getElem?_setPadded pad xs n x

/-- At other branches nothing changes, up to the padding in front of an item. -/
theorem part?_set_ne (h : b' ≠ b) (l : Layer α) (pad x : α) :
    (l.set pad b x).part? b' = l.part? b' ∨
      ∃ m n, b' = .item m ∧ b = .item n ∧ m < n ∧ l.part? b' = none ∧
        (l.set pad b x).part? b' = some pad := by
  cases l with
  | scalar a => exact .inl rfl
  | object es =>
    cases b with
    | item n => exact .inl rfl
    | entry k =>
      cases b' with
      | item m => exact .inl rfl
      | entry k' => exact .inl (Entries.get?_put_of_ne (fun he => h (congrArg _ he)) es x)
  | list xs =>
    cases b with
    | entry k => exact .inl rfl
    | item n =>
      cases b' with
      | entry k' => exact .inl rfl
      | item m =>
        refine (getElem?_setPadded_ne (fun he => h (congrArg _ he)) pad xs x).imp_right ?_
        exact fun ⟨hlt,hnone,hpad⟩ => ⟨m,n,rfl,rfl,hlt,hnone,hpad⟩

theorem set_same (h : l.part? b = some x) (pad : α) : l.set pad b x = l := by
  cases l with
  | scalar a => rfl
  | object es =>
    cases b with
    | item n => rfl
    | entry k =>
      obtain ⟨before,after,rfl,hput⟩ := Entries.put_split h
      exact congrArg Layer.object (hput x)
  | list xs =>
    cases b with
    | entry k => rfl
    | item n => exact congrArg Layer.list (setPadded_same h pad)

theorem mem_below_of_part? (h : l.part? b = some x) : x ∈ l.below := by
  cases l with
  | scalar a => cases h
  | object es =>
    cases b with
    | item n => cases h
    | entry k => exact Entries.get?_below h
  | list xs =>
    cases b with
    | entry k => cases h
    | item n => exact List.mem_of_getElem? h

end Layer

def View.at? {α : Type} (v : View α) : α → Spot → Option α
  | x, [] => some x
  | x, b :: rest => ((v.layer x).part? b).bind fun y => v.at? y rest

namespace View

variable {α : Type} {v : View α} {x y : α} {b : Branch} {a : Spot}

theorem at?_cons (h : (v.layer x).part? b = some y) (a : Spot) : v.at? x (b :: a) = v.at? y a := by
  rw [at?,h]
  rfl

theorem at?_cons_none (h : (v.layer x).part? b = none) (a : Spot) : v.at? x (b :: a) = none := by
  rw [at?,h]
  rfl

theorem at?_cons_some (h : v.at? x (b :: a) = some y) :
    ∃ z, (v.layer x).part? b = some z ∧ v.at? z a = some y := Option.bind_eq_some_iff.1 h

theorem at?_of_below (h : (v.layer x).below = []) (ha : a ≠ []) : v.at? x a = none := by
  obtain ⟨b,rest,rfl⟩ := List.exists_cons_of_ne_nil ha
  refine at?_cons_none (Option.eq_none_iff_forall_ne_some.2 fun y hy => ?_) rest
  have hbelow := Layer.mem_below_of_part? hy
  rw [h] at hbelow
  cases hbelow

theorem at?_of_not_container (h : (v.layer x).isContainer = false) (ha : a ≠ []) :
    v.at? x a = none := by
  refine at?_of_below ?_ ha
  cases hl : v.layer x with
  | scalar s => rfl
  | _ =>
    rw [hl] at h
    cases h

end View

namespace Store

variable {s s' : Store} {i j x : Item} {a a' : Spot} {b : Branch} {id : Nat}

/-- Every container below an item is there, at one spot only. -/
structure Unshared (s : Store) (i : Item) : Prop where
  lt : ∀ {a id}, s.view.at? i a = some (.cell id) → id < s.cells.size
  once : ∀ {a a' id}, s.view.at? i a = some (.cell id) → s.view.at? i a' = some (.cell id) → a = a'

theorem Unshared.part (h : s.Unshared i) (hj : (s.layer i).part? b = some j) : s.Unshared j where
  lt ha := h.lt ((View.at?_cons hj _).trans ha)
  once ha ha' :=
    (List.cons.inj (h.once ((View.at?_cons hj _).trans ha) ((View.at?_cons hj _).trans ha'))).2

theorem Unshared.apart (h : s.Unshared i) {b' : Branch} {j' : Item}
    (hj : (s.layer i).part? b = some j) (hj' : (s.layer i).part? b' = some j')
    (ha : s.view.at? j a = some (.cell id)) (ha' : s.view.at? j' a' = some (.cell id)) : b = b' :=
  (List.cons.inj (h.once ((View.at?_cons hj a).trans ha) ((View.at?_cons hj' a').trans ha'))).1

theorem Unshared.root_ne (h : s.Unshared (.cell id)) (hj : (s.layer (.cell id)).part? b = some j) :
    s.view.at? j a ≠ some (.cell id) := fun ha => by
  cases h.once (show s.view.at? (.cell id) [] = some (.cell id) from rfl)
    ((View.at?_cons hj a).trans ha)

theorem at?_frame (hlt : ∀ {a k}, s.view.at? i a = some (.cell k) → k < s.cells.size)
    (hsame : ∀ k < s.cells.size, k ≠ id → s'.cells[k]? = s.cells[k]?)
    (hid : ∀ a, s.view.at? i a ≠ some (.cell id)) (a : Spot) :
    s'.view.at? i a = s.view.at? i a := by
  induction a generalizing i with
  | nil => rfl
  | cons b rest ih =>
    have hlayer : s'.view.layer i = s.view.layer i := by
      cases i with
      | leaf a => rfl
      | cell k =>
        exact layer_eq_of_cells (hsame k (hlt (a := []) rfl) fun hk => hid [] (by rw [hk]; rfl))
    cases hpart : (s.view.layer i).part? b with
    | none => rw [View.at?_cons_none hpart,View.at?_cons_none (hlayer ▸ hpart)]
    | some j =>
      rw [View.at?_cons hpart,View.at?_cons (hlayer ▸ hpart)]
      exact ih (fun ha => hlt ((View.at?_cons hpart _).trans ha))
        fun a ha => hid _ ((View.at?_cons hpart a).trans ha)

theorem Encloses.at? {P : Nat → Prop} (h : s.Encloses P) (hi : i.In P)
    (ha : s.view.at? i a = some j) :
    j.In P := by
  induction a generalizing i with
  | nil => exact Option.some.inj ha ▸ hi
  | cons b rest ih =>
    obtain ⟨k,hk,ha⟩ := View.at?_cons_some ha
    exact ih (h.below hi k (Layer.mem_below_of_part? hk)) ha

end Store

namespace Owned

variable {s : Store} {P : Nat → Prop} {o o' : Owned} {os : List Owned} {a : Spot} {b b' : Branch}
  {id : Nat}

def parts : Owned → List Owned
  | .list _ os => os
  | .object _ es => roots es
  | _ => []

inductive LeadsTo : Owned → Branch → Nat → Owned → Prop
  | item {id n : Nat} {os : List Owned} {o : Owned} (h : os[n]? = some o) :
      LeadsTo (.list id os) (.item n) n o
  | entry {id n : Nat} {es : List (String × Owned)} {k : String} {o : Owned}
      (h : es[n]? = some (k,o)) : LeadsTo (.object id es) (.entry k) n o

theorem LeadsTo.part {n : Nat} (h : o.LeadsTo b n o') : o.parts[n]? = some o' := by
  cases h with
  | item h => exact h
  | entry h =>
    rw [parts,roots,List.getElem?_map,h]
    rfl

theorem LeadsTo.unique {n : Nat} {o₁ o₂ : Owned} (h : o.LeadsTo b n o₁) (h' : o.LeadsTo b' n o₂) :
    b = b' := by
  cases h with
  | item h => cases h' with
    | item h' => rfl
  | entry h => cases h' with
    | entry h' =>
      cases h.symm.trans h'
      rfl

theorem StoredIn.leads (h : o.StoredIn s P) (hp : o.GuestFree) {y : Item}
    (hy : (s.layer o.item).part? b = some y) : ∃ n o', o.LeadsTo b n o' ∧ y = o'.item := by
  cases h with
  | leaf a => cases hy
  | guest tells => cases hp
  | @list id os cell items =>
    rw [item,Store.layer,cell] at hy
    cases b with
    | entry k => cases hy
    | item n =>
      obtain ⟨o',ho',rfl⟩ := Option.map_eq_some_iff.1 ((List.getElem?_map ..).symm.trans hy)
      exact ⟨n,o',.item ho',rfl⟩
  | @object id es cell entries =>
    rw [item,Store.layer,cell] at hy
    cases b with
    | item n => cases hy
    | entry k =>
      obtain ⟨o',ho',rfl⟩ := Option.map_eq_some_iff.1 ((Entries.get?_map item es k).symm.trans hy)
      obtain ⟨n,hn⟩ := List.mem_iff_getElem?.1 (Entries.mem_of_get? ho')
      exact ⟨n,o',.entry hn,rfl⟩

theorem GuestFree.ids_eq (h : o.GuestFree) {id : Nat} (hid : o.item = .cell id) :
    o.ids = id :: o.parts.flatMap ids := by
  cases h with
  | leaf a => cases hid
  | list items =>
    cases hid
    rw [ids,parts]
  | object entries =>
    cases hid
    exact ids_object _ _

theorem GuestFree.of_parts (h : o.GuestFree) (ho : o' ∈ o.parts) : o'.GuestFree := by
  cases h with
  | leaf a => cases ho
  | list items => exact items o' ho
  | object entries => exact entries o' ho

theorem StoredIn.of_parts (h : o.StoredIn s P) (ho : o' ∈ o.parts) : o'.StoredIn s P := by
  cases h with
  | leaf a => cases ho
  | guest tells => cases ho
  | list cell items => exact items o' ho
  | object cell entries => exact entries o' ho

theorem index_eq {m n : Nat} (hn : (os.flatMap ids).Nodup) (h : os[m]? = some o)
    (h' : os[n]? = some o') (hid : id ∈ o.ids) (hid' : id ∈ o'.ids) : m = n := by
  have hpair := (List.nodup_flatMap.1 hn).2
  obtain ⟨hm,rfl⟩ := List.getElem?_eq_some_iff.1 h
  obtain ⟨hn,rfl⟩ := List.getElem?_eq_some_iff.1 h'
  rcases Nat.lt_trichotomy m n with hlt | heq | hlt
  · exact (List.pairwise_iff_getElem.1 hpair m n hm hn hlt hid hid').elim
  · exact heq
  · exact (List.pairwise_iff_getElem.1 hpair n m hn hm hlt hid' hid).elim

structure OwnTree (s : Store) (P : Nat → Prop) (o : Owned) : Prop where
  plain : o.GuestFree
  stands : o.StoredIn s P
  nodup : o.ids.Nodup

namespace OwnTree

theorem mem_ids (h : o.OwnTree s P) (ha : s.view.at? o.item a = some (.cell id)) : id ∈ o.ids :=
  Store.Encloses.at? (P := (· ∈ o.ids)) (fun _ _ hid hc => h.plain.closed h.stands hid hc)
    h.plain.item_in ha

theorem below (h : o.OwnTree s P) {y : Item} (ha : s.view.at? o.item (b :: a) = some y) :
    ∃ root n o', o.item = .cell root ∧ (root :: o.parts.flatMap ids).Nodup ∧ o.LeadsTo b n o' ∧
      o'.OwnTree s P ∧ s.view.at? o'.item a = some y := by
  obtain ⟨j,hj,ha⟩ := View.at?_cons_some ha
  obtain ⟨n,o',hleads,rfl⟩ := h.stands.leads h.plain hj
  have hmem := List.mem_of_getElem? hleads.part
  obtain ⟨root,hroot⟩ : ∃ root, o.item = .cell root := by
    cases hleads <;> exact ⟨_,rfl⟩
  have hn := h.nodup
  rw [h.plain.ids_eq hroot] at hn
  exact ⟨root,n,o',hroot,hn,hleads,⟨h.plain.of_parts hmem,h.stands.of_parts hmem,
    (List.nodup_flatMap.1 (List.nodup_cons.1 hn).2).1 o' hmem⟩,ha⟩

theorem root_ne (h : o.OwnTree s P) (hroot : o.item = .cell id) :
    s.view.at? o.item (b :: a) ≠ some (.cell id) := by
  intro ha
  obtain ⟨root,n,o',hitem,hn,hleads,ho',ha⟩ := h.below ha
  cases hroot.symm.trans hitem
  exact (List.nodup_cons.1 hn).1
    (List.mem_flatMap_of_mem (List.mem_of_getElem? hleads.part) (ho'.mem_ids ha))

theorem once (h : o.OwnTree s P) (ha : s.view.at? o.item a = some (.cell id)) {a' : Spot}
    (ha' : s.view.at? o.item a' = some (.cell id)) : a = a' := by
  induction a generalizing o a' with
  | nil =>
    cases a' with
    | nil => rfl
    | cons b' rest' => exact (h.root_ne (Option.some.inj ha) ha').elim
  | cons b rest ih =>
    cases a' with
    | nil => exact (h.root_ne (Option.some.inj ha') ha).elim
    | cons b' rest' =>
      obtain ⟨root,n,o₁,-,hn,hleads,ho₁,ha⟩ := h.below ha
      obtain ⟨-,n',o₂,-,-,hleads',ho₂,ha'⟩ := h.below ha'
      obtain rfl : n = n' := index_eq (List.nodup_cons.1 hn).2 hleads.part hleads'.part
        (ho₁.mem_ids ha) (ho₂.mem_ids ha')
      cases hleads.part.symm.trans hleads'.part
      rw [hleads.unique hleads',ih ho₁ ha ha']

theorem unshared (h : o.OwnTree s P) : s.Unshared o.item where
  lt ha := h.stands.lt _ (h.mem_ids ha)
  once ha ha' := h.once ha ha'

end OwnTree

end Owned

theorem Store.unshared_plant (s : Store) (v : Value) : (s.plant v).1.Unshared (s.plant v).2 := by
  have hregion : s.Region fun _ => False := ⟨fun _ h => h.elim,fun _ _ h => h.elim⟩
  obtain ⟨o,hitem,-,hp⟩ := Owned.planted s hregion v
  have hn := hp.held.nodup
  rw [List.flatMap_singleton] at hn
  rw [← hitem]
  exact Owned.OwnTree.unshared
    ⟨hp.plain o List.mem_cons_self,hp.held.stands o List.mem_cons_self,hn⟩

end StepGraph
