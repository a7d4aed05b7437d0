import StepGraph.Graph.Route
import StepGraph.Proofs.Custody
import StepGraph.Proofs.Planted

/-!
A graph that is made ready to be walked. Every configuration stands in new containers and spells
what was given, so any choice of configurations is apart from the others and from what was there.
-/
namespace StepGraph

namespace Store

/-- Two regions that have nothing in common, one with some items and one with others. -/
structure Parted (s : Store) (P Q : Nat → Prop) (as bs : List Item) : Prop where
  left : s.Region P
  right : s.Region Q
  disjoint : ∀ id, P id → ¬ Q id
  leftMem : ∀ i ∈ as, i.In P
  rightMem : ∀ i ∈ bs, i.In Q

def Within (s : Store) (P' P : Nat → Prop) : Prop := ∀ id < s.cells.size, P' id → P id

variable {s : Store} {P Q : Nat → Prop} {as bs : List Item}

theorem Within.behind {s' : Store} {P₁ P' : Nat → Prop} (h : s.Within P₁ P)
    (h' : s'.Within P' P₁) (hs : s.cells.size ≤ s'.cells.size) : s.Within P' P :=
  fun id hid hp => h id hid (h' id (Nat.lt_of_lt_of_le hid hs) hp)

namespace Parted

theorem symm (h : s.Parted P Q as bs) : s.Parted Q P bs as :=
  ⟨h.right,h.left,fun id hq hp => h.disjoint id hp hq,h.rightMem,h.leftMem⟩

theorem mono {as' bs' : List Item} (h : s.Parted P Q as bs) (ha : ∀ i ∈ as', i ∈ as)
    (hb : ∀ i ∈ bs', i ∈ bs) : s.Parted P Q as' bs' :=
  ⟨h.left,h.right,h.disjoint,fun i hi => h.leftMem i (ha i hi),fun i hi => h.rightMem i (hb i hi)⟩

theorem apart (h : s.Parted P Q as bs) : s.Apart as bs :=
  ⟨P,h.leftMem,h.left,Q,h.right,h.rightMem,h.disjoint⟩

theorem grows (h : s.Parted P Q as bs) {s' : Store} (hg : s.Grows s') : s'.Parted P Q as bs :=
  ⟨h.left.of_agrees (h.left.agrees hg),h.right.of_agrees (h.right.agrees hg),h.disjoint,h.leftMem,
    h.rightMem⟩

theorem plant (h : s.Parted P Q as bs) (v : Value) : ∃ Q',
    (s.plant v).1.Parted P Q' as ((s.plant v).2 :: bs) ∧ s.Within Q' Q := by
  obtain ⟨hi,hx⟩ := plant_inside (fun id hid => .inr hid) h.right.withNew v
  refine ⟨(s.plant v).1.upTo (s.withNew Q),⟨?_,hi.region,?_,h.leftMem,?_⟩,?_⟩
  · exact h.left.of_agrees (h.left.agrees (s.plant_grows v))
  · exact fun id hp hq => h.left.not_withNew h.disjoint hp hq.1
  · exact List.forall_mem_cons.2 ⟨hx,fun i hb => hi.mem (h.right.mem_withNew (h.rightMem i hb))⟩
  · intro id hid hq
    exact hq.1.resolve_right (Nat.not_le.2 hid)

end Parted

end Store

namespace Graph

open Store

def configs (nodes : Entries (Node Item)) : List Item :=
  nodes.filterMap fun e =>
    match e.2 with
    | .start _ => none
    | .step n => some n.config

theorem mem_configs_filter {nodes : Entries (Node Item)} {chosen : String × Node Item → Bool}
    {id : String} {n : Step Item} (h : Entries.get? nodes id = some (.step n))
    (hc : chosen (id,.step n) = true) : n.config ∈ configs (nodes.filter chosen) :=
  List.mem_filterMap.2 ⟨_,List.mem_filter.2 ⟨Entries.mem_of_get? h,hc⟩,rfl⟩

theorem mem_configs {g : Graph Item} {id : String} {n : Step Item}
    (h : Entries.get? g.nodes id = some (.step n)) : n.config ∈ configs g.nodes :=
  List.mem_filterMap.2 ⟨_,Entries.mem_of_get? h,rfl⟩

theorem plantNodes_grows (s : Store) (nodes : Entries (Node Value)) :
    s.Grows (plantNodes s nodes).1 := by
  induction nodes generalizing s with
  | nil => exact refl_of Store.Grows s
  | cons e rest ih =>
    obtain ⟨k,node⟩ := e
    cases node with
    | start m => exact ih s
    | step n => exact trans_of Store.Grows (s.plant_grows n.config) (ih _)

theorem plantNodes_parted (chosen : String × Node Item → Bool) {s : Store} {P Q : Nat → Prop}
    {as bs : List Item} (h : s.Parted P Q as bs) (nodes : Entries (Node Value)) : ∃ P' Q',
    (plantNodes s nodes).1.Parted P' Q'
      (configs ((plantNodes s nodes).2.filter chosen) ++ as)
      (configs ((plantNodes s nodes).2.filter (!chosen ·)) ++ bs) ∧
    s.Within P' P ∧ s.Within Q' Q := by
  induction nodes generalizing s P Q as bs with
  | nil => exact ⟨P,Q,h,fun _ _ hp => hp,fun _ _ hq => hq⟩
  | cons e rest ih =>
    obtain ⟨k,node⟩ := e
    cases node with
    | start m =>
      obtain ⟨P',Q',hpart,hP,hQ⟩ := ih h
      refine ⟨P',Q',hpart.mono ?_ ?_,hP,hQ⟩ <;>
        simp only [plantNodes,Node.plant,List.filter_cons] <;> split <;> exact fun i hi => hi
    | step n =>
      have hsize := (s.plant_grows n.config).size_le
      let planted : String × Node Item := (k,.step { n with config := (s.plant n.config).2 })
      change ∃ P' Q',(plantNodes (s.plant n.config).1 rest).1.Parted P' Q'
        (configs ((planted :: (plantNodes (s.plant n.config).1 rest).2).filter chosen) ++ as)
        (configs ((planted :: (plantNodes (s.plant n.config).1 rest).2).filter (!chosen ·)) ++ bs) ∧
          s.Within P' P ∧ s.Within Q' Q
      -- The new containers go to the side on which the configuration is wanted.
      cases hc : chosen planted with
      | true =>
        obtain ⟨P₁,hplant,hP₁⟩ := h.symm.plant n.config
        obtain ⟨P',Q',hpart,hP,hQ⟩ := ih hplant.symm
        refine ⟨P',Q',hpart.mono ?_ ?_,hP₁.behind hP hsize,.behind (fun _ _ h => h) hQ hsize⟩
        · rw [List.filter_cons_of_pos hc]
          exact fun i hi => List.perm_middle.mem_iff.2 hi
        · rw [List.filter_cons_of_neg (by simp [hc])]
          exact fun i hi => hi
      | false =>
        obtain ⟨Q₁,hplant,hQ₁⟩ := h.plant n.config
        obtain ⟨P',Q',hpart,hP,hQ⟩ := ih hplant
        refine ⟨P',Q',hpart.mono ?_ ?_,.behind (fun _ _ h => h) hP hsize,hQ₁.behind hQ hsize⟩
        · rw [List.filter_cons_of_neg (by simp [hc])]
          exact fun i hi => hi
        · rw [List.filter_cons_of_pos (by simp [hc])]
          exact fun i hi => List.perm_middle.mem_iff.2 hi

theorem plantNodes_step {nodes : Entries (Node Value)} {id : String} {m : Step Value}
    (h : Entries.get? nodes id = some (.step m)) (s : Store) : ∃ x n,
    Entries.get? (plantNodes s nodes).2 id = some (.step { m with config := x }) ∧
    (plantNodes s nodes).1.Spells n m.config x := by
  induction nodes generalizing s with
  | nil => cases h
  | cons e rest ih =>
    obtain ⟨k,node⟩ := e
    unfold Entries.get? at h
    split at h
    · rename_i hk
      cases h
      refine ⟨(s.plant m.config).2,_,if_pos hk,(s.spells_plant m.config).grows ?_⟩
      exact plantNodes_grows _ rest
    · rename_i hk
      obtain ⟨x,n,hget,hs⟩ := ih h (node.plant s).1
      exact ⟨x,n,(if_neg hk).trans hget,hs⟩

theorem plantNodes_spells (s : Store) (nodes : Entries (Node Value)) {id : String} {n : Step Item}
    (h : Entries.get? (plantNodes s nodes).2 id = some (.step n)) :
    ∃ d v, (plantNodes s nodes).1.Spells d v n.config := by
  induction nodes generalizing s with
  | nil => cases h
  | cons e rest ih =>
    obtain ⟨k,node⟩ := e
    change (if id = k then some (node.plant s).2 else
      Entries.get? (plantNodes (node.plant s).1 rest).2 id) = _ at h
    split at h
    · cases node with
      | start m => cases h
      | step m =>
        cases h
        exact ⟨_,_,(s.spells_plant m.config).grows (plantNodes_grows _ rest)⟩
    · exact ih _ h

/-- A graph that is made ready shares nothing with what was there. -/
theorem plant_apart {s : Store} {P : Nat → Prop} (hP : s.Region P) {live : List Item}
    (hlive : ∀ i ∈ live, i.In P) (g : Graph Value) :
    (g.plant s).1.Apart (configs (g.plant s).2.nodes) live := by
  have hempty : s.Parted (fun _ => False) P [] live :=
    ⟨⟨fun _ h => h.elim,fun _ _ h => h.elim⟩,hP,fun _ h => h.elim,by simp,hlive⟩
  obtain ⟨P',Q',hpart,-,-⟩ := plantNodes_parted (fun _ => true) hempty g.nodes
  rw [List.filter_eq_self.2 fun _ _ => rfl,List.append_nil] at hpart
  exact (hpart.mono (fun _ hi => hi) fun i hi => List.mem_append_right _ hi).apart

end Graph

end StepGraph
