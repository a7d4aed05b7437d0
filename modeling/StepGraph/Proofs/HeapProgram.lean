import StepGraph.Context.Mapping
import StepGraph.Http.Form
import StepGraph.Proofs.HeapWrite

/-!
Programs that stay in a part of the store. What such a program writes, and what its result leads to,
stands in the part or is new. Assigning entries and writing at paths are of this kind.
-/
namespace StepGraph

namespace View.Hereditary

variable {α : Type} {v : View α} {T : α → Prop} {x y : α}

theorem itemAt (h : v.Hereditary T) (hx : T x) {place : Option Int}
    (hy : Path.itemAt v x place = some y) : T y := by
  have hb := h.below x hx
  unfold Path.itemAt at hy
  split at hy
  · cases hy
  · split at hy
    · rename_i xs hl
      rw [hl] at hb
      split at hy
      · cases hy
      · exact hb y (List.mem_of_getElem? hy)
    · rename_i es hl
      rw [hl] at hb
      exact hb y (Entries.get?_below hy)
    · split at hy
      · cases hy
      · obtain ⟨c,-,rfl⟩ := Option.map_eq_some_iff.1 hy
        exact h.leaf _ (.text _)
    · cases hy

theorem step (h : v.Hereditary T) (hx : T x) {g : Segment} (hy : Path.step v x g = some y) :
    T y := by
  cases g with
  | key name => exact h.child? hx hy
  | index place => exact h.itemAt hx hy
  | keyIndex name place =>
    obtain ⟨z,hz,hy⟩ := Option.bind_eq_some_iff.1 hy
    exact h.itemAt (h.child? hx hz) hy

theorem follow (h : v.Hereditary T) (hx : T x) {gs : List Segment}
    (hy : Path.follow v x gs = some y) : T y := by
  induction gs generalizing x with
  | nil =>
    cases hy
    exact hx
  | cons g gs ih =>
    unfold Path.follow at hy
    split at hy
    · cases hy
    · rename_i z hz
      split at hy
      · cases hy
      · exact ih (h.step hx hz) hy

theorem lookup (h : v.Hereditary T) (hx : T x) {path : String}
    (hy : Path.lookup v x path = some y) : T y := by
  unfold Path.lookup at hy
  split at hy
  · cases hy
  · simp only at hy
    split at hy
    · rename_i z hw
      cases hy
      unfold Path.wholeKey? at hw
      split at hw
      · rename_i u hu
        split at hw <;> cases hw
        exact h.child? hx hu
      · cases hw
    · exact h.follow hx hy

end View.Hereditary

namespace Store.Region

variable {s : Store} {P : Nat → Prop}

theorem field (h : s.Region P) {i : Item} (hi : i.In P) (k : String) : (s.field i k).In P :=
  h.hereditary.field hi k

theorem lookup (h : s.Region P) {root : Item} (hr : root.In P) (path : String) :
    (s.lookup root path).In P := .ofOption fun _ hx => h.hereditary.lookup hr hx

end Store.Region

namespace Edit

open Store Attempt

variable {α β : Type} {n : Nat} {Q : Nat → Prop} {is : List Item}

structure Stands (n : Nat) (Q : Nat → Prop) (is : List Item) (s : Store) : Prop where
  fresh : ∀ id, n ≤ id → Q id
  size : n ≤ s.cells.size
  region : s.Region (s.upTo Q)
  mem : ∀ i ∈ is, i.In (s.upTo Q)

/-- An item that stands where some others stand: one of them, or a leaf. -/
def Among (is : List Item) (i : Item) : Prop := i ∈ is ∨ ∃ a, i = .leaf a

namespace Stands

variable {s s' : Store}

theorem after (h : Stands n Q is s) (hi : Inside Q s s') : Stands n Q is s' :=
  ⟨h.fresh,Nat.le_trans h.size hi.size_le,hi.region,fun i hi' => hi.mem (h.mem i hi')⟩

theorem among (h : Stands n Q is s) {i : Item} (hi : Among is i) : i.In (s.upTo Q) := by
  rcases hi with hi | ⟨a,rfl⟩
  · exact h.mem i hi
  · trivial

theorem new (h : Stands n Q is s) : ∀ id, s.cells.size ≤ id → Q id :=
  fun id hid => h.fresh id (Nat.le_trans h.size hid)

end Stands

/-- A program that stays in the set where some items stand. What it names of its result stands there
as well. -/
def Leads (n : Nat) (Q : Nat → Prop) (is : List Item) (p : Edit α) (named : α → List Item) :
    Prop :=
  ∀ s, Stands n Q is s → Inside Q s (p.exec s).2 ∧
    ∀ x, (p.exec s).1 = .ok x → ∀ i ∈ named x, i.In ((p.exec s).2.upTo Q)

abbrev Stays (n : Nat) (Q : Nat → Prop) (is : List Item) (p : Edit α) : Prop :=
  Leads n Q is p fun _ => []

namespace Leads

variable {named : β → List Item} {a : α → List Item}

theorem bind {p : Edit α} {f : α → Edit β} (hp : Leads n Q is p a)
    (hf : ∀ x, Leads n Q (a x ++ is) (f x) named) : Leads n Q is (p >>= f) named := by
  intro s hs
  obtain ⟨hi,hx⟩ := hp s hs
  rw [exec_bind]
  rcases he : p.exec s with ⟨e | x,s'⟩ <;> rw [he] at hi hx
  · exact ⟨hi,fun x hx => by cases hx⟩
  · have hs' := hs.after hi
    obtain ⟨hi',hy⟩ := hf x s' ⟨hs.fresh,hs'.size,hs'.region,fun i hmem =>
      (List.mem_append.1 hmem).elim (hx x rfl i) (hs'.mem i)⟩
    exact ⟨hi.trans hi',hy⟩

theorem pure {x : β} (h : ∀ i ∈ named x, Among is i) :
    Leads n Q is (Pure.pure x : Edit β) named := by
  refine fun s hs => ⟨.refl hs.region,?_⟩
  rintro _ ⟨⟩ i hi
  exact hs.among (h i hi)

theorem of (r : Except Fault α) : Stays n Q is (Edit.of r) :=
  fun s hs => ⟨.refl hs.region,by simp⟩

protected theorem get : Stays n Q is get := fun s hs => ⟨.refl hs.region,by simp⟩

theorem read (i : Item) : Stays n Q is (Edit.read i) := Leads.get.bind fun _ => of _

theorem closed : Closed (Stays n Q is) where
  pure x := .pure (by simp)
  bind := .bind

theorem get_bind {k : Store → Edit β}
    (h : ∀ s, Stands n Q is s → ∃ found, (∀ i ∈ found, i.In (s.upTo Q)) ∧
      Leads n Q (found ++ is) (k s) named) : Leads n Q is (get >>= k) named := by
  intro s hs
  obtain ⟨found,hfound,hk⟩ := h s hs
  exact hk s ⟨hs.fresh,hs.size,hs.region,fun i hi =>
    (List.mem_append.1 hi).elim (hfound i) (hs.mem i)⟩

theorem plant (v : Value) : Leads n Q is (Edit.plant v) fun x => [x] := by
  intro s hs
  obtain ⟨hi,hx⟩ := plant_inside hs.new hs.region v
  refine ⟨hi,?_⟩
  rintro _ ⟨⟩ i hmem
  rw [List.mem_singleton.1 hmem]
  exact hx

theorem newObject {es : Entries Item} (h : ∀ e ∈ es, Among is e.2) :
    Leads n Q is (Edit.newObject es) fun x => [x] := by
  intro s hs
  obtain ⟨hi,hx⟩ := alloc_inside (c := .object es) hs.new hs.region fun j hj => by
    obtain ⟨e,he,rfl⟩ := List.mem_map.1 hj
    exact hs.among (h e he)
  refine ⟨hi,?_⟩
  rintro _ ⟨⟩
  exact List.forall_mem_singleton.2 hx

theorem setPath {doc x : Item} (hd : doc ∈ is) (hx : Among is x) (path : Value) :
    Stays n Q is (Edit.setPath doc path x) := by
  refine fun s hs => ⟨?_,by simp⟩
  unfold Edit.setPath
  split
  · rename_i p
    have hw := writeAt_inside (Path.places p) hs.new hs.region (hs.mem doc hd) (hs.among hx)
    change Inside Q s (s.setPath doc p x).1
    unfold Store.setPath
    simp only
    split
    · rename_i s' he
      rw [he] at hw
      exact hw
    · rename_i s' f he
      rw [he] at hw
      exact hw
  · exact .refl hs.region

theorem set {c x : Item} (hc : c ∈ is) (hx : Among is x) (k : String) :
    Stays n Q is (Edit.set c k x) := by
  refine fun s hs => ⟨?_,by simp⟩
  change Inside Q s (s.putField c k x)
  exact putField_inside hs.region (hs.mem c hc) (hs.among hx) k

theorem lookup {root : Item} (hr : Among is root) (path : Value) :
    Leads n Q is (Edit.lookup root path) fun x => [x] := by
  unfold Edit.lookup
  split
  · rename_i p
    refine get_bind fun s hs => ⟨[s.lookup root p],?_,.pure (by simp [Among])⟩
    exact List.forall_mem_singleton.2 (hs.region.lookup (hs.among hr) p)
  · exact .pure (by simp [Among])

end Leads

theorem Among.mono {is js : List Item} (h : ∀ i ∈ is, i ∈ js) {i : Item} (hi : Among is i) :
    Among js i := hi.imp_left (h i)

theorem Leads.extracted {c : Item} (hc : c ∈ is) {s : Store} (hs : Stands n Q is s) :
    ∀ i ∈ (Context.extracted? s c).toList, i.In (s.upTo Q) := by
  unfold Context.extracted?
  simp only
  split
  · exact List.forall_mem_singleton.2 (hs.region.field (hs.mem c hc) _)
  · simp

theorem Stays.spares {P : Nat → Prop} {p : Edit α} (h : ∀ n Q, Stays n Q is p) :
    Keeps (Spares P is) p := fun s hg => hg.of_inside [] fun Q hr hQ hm =>
  ⟨(h s.cells.size Q s ⟨hQ,Nat.le_refl _,hr,hm⟩).1,by simp⟩

end Edit

/-! Building a document part of a form writes in the part's own containers. A part whose document stands
in the configuration is filled in there; every other part is filled in a new document. -/

namespace Http.JsonPart

open Store Attempt Edit

variable {n : Nat} {Q : Nat → Prop} {is : List Item}

theorem start_leads {part : Item} (hp : part ∈ is) : Leads n Q is (start part) fun x => [x] := by
  intro s hs
  have own : Inside Q s s ∧ ∀ x, (.ok (s.view.orElse (s.field part "value") (.text "\x7b\x7d")) :
      Except Fault Item) = .ok x → ∀ i ∈ [x], i.In (s.upTo Q) := by
    refine ⟨.refl hs.region,?_⟩
    rintro x ⟨⟩ i hi
    rw [List.mem_singleton.1 hi]
    unfold View.orElse
    split
    · exact hs.region.field (hs.mem part hp) "value"
    · trivial
  unfold start
  rw [exec_bind_ok (exec_get s)]
  simp only
  cases hl : s.layer (s.view.orElse (s.field part "value") (.text "\x7b\x7d")) with
  | list xs => exact own
  | object es => exact own
  | scalar a =>
    cases a with
    | text t =>
      simp only
      rcases Payload.documentOr (.object []) t with f | doc
      · refine ⟨.refl hs.region,?_⟩
        rintro x ⟨⟩
      · have hx : (Edit.of (.ok doc)).exec s = (.ok doc,s) := rfl
        rw [exec_bind_ok hx]
        cases doc <;> exact Leads.plant _ s hs
    | _ => exact Leads.plant _ s hs

theorem fill_stays (scope : Scope) {doc : Item} (hd : doc ∈ is) (m : Value) :
    Stays n Q is (fill scope doc m) := by
  unfold fill
  refine (Leads.of _).bind fun name => ?_
  simp only
  split
  · exact Leads.closed.pure _
  · refine (Leads.of _).bind fun raw => (Leads.of _).bind fun y => (Leads.plant y).bind fun x => ?_
    exact Leads.closed.map
      (.setPath (List.mem_cons_of_mem _ hd) (.inl List.mem_cons_self) name) _

theorem build_stays {part : Item} (hp : part ∈ is) (scope : Scope) :
    Stays n Q is (build part scope) := by
  unfold build
  refine (start_leads hp).bind fun doc => ?_
  refine Leads.bind .get fun s => (Leads.read _).bind fun mappings => (Leads.of _).bind fun ms => ?_
  refine (Leads.closed.forM fun m _ => fill_stays scope List.mem_cons_self m).bind fun _ => ?_
  exact (Leads.read doc).bind fun v => .of _

theorem build_spares {P : Nat → Prop} {part : Item} (hp : part ∈ is) (scope : Scope) :
    Keeps (Spares P is) (build part scope) := Stays.spares fun _ _ => build_stays hp scope

end Http.JsonPart

end StepGraph
