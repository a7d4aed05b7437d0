import StepGraph.Proofs.PlantedGraph
import StepGraph.Proofs.VisitCustody

/-!
The configuration of every step is read as it was given. Only a form that is filled in where it
stands may change it: what such a form writes there, a later visit reads.
-/
namespace StepGraph

open Attempt Custody

namespace Visit

/-- A step that writes to its own configuration: a form that is filled in where it stands. -/
def SelfWriting {κ : Type} (m : Step κ) (config : Value) : Prop :=
  m.kind? = some .multipartUpload ∧ Steps.fillsInPlace config = true

def guarding (P : Nat → Prop) (docs : List Item) (c : Item) (s₀ : Store) : Custody c :=
  ((protecting P c).holding docs).since s₀

variable {P Q : Nat → Prop} {docs : List Item} {c : Item} {s₀ : Store} {n : Step Item}

theorem fits_guarding_other (hn : n.config ∈ docs) : (guarding P docs c s₀).Fits n :=
  (Fits.holding (C := protecting P c) hn fun _ _ _ _ _ _ _ _ => trivial).since s₀

theorem fits_guarding_own {config : Value} {d : Nat} (hP : s₀.Region P) (hin : n.config.In P)
    (hs : s₀.Spells d config n.config) (hn : ¬ SelfWriting n config) :
    (guarding P docs c s₀).Fits n where
  allows _ _ _ _ _ _ _ _ := trivial
  parts hk run live scope filename := by
    have hagrees (s : Store) (h : (guarding P docs c s₀).Holds live s) : s₀.Agrees P s := h.2
    refine Steps.formParts_beside hP hagrees hin hs ?_ run scope filename
    exact Bool.eq_false_iff.2 fun hfills => hn ⟨hk,hfills⟩

theorem trail_config {g : Graph Item} {t t' : Trip} {target next : Option String}
    {stops : List (Stop Trip Item)} (h : g.Trail step t target stops t' next) {id : String}
    (hn : Entries.get? g.nodes id = some (.step n))
    (hpart : t.world.store.Parted P Q [n.config]
      (Graph.configs (g.nodes.filter (·.1 != id)) ++ [t.run.context,t.run.last]))
    {config : Value} {d : Nat} (hs : t.world.store.Spells d config n.config)
    (hown : SelfWriting n config → ∀ st ∈ stops, st.target ≠ id) :
    (∀ st ∈ stops, st.before.world.store.read n.config = .ok config) ∧
      t'.world.store.read n.config = .ok config := by
  have hin : n.config.In P := hpart.leftMem _ (List.mem_singleton_self _)
  have hfits : ∀ st ∈ stops, ∀ m, st.node = .step m → (guarding P
      (Graph.configs (g.nodes.filter (·.1 != id))) t.run.context t.world.store).Fits m := by
    rintro ⟨target,_,_,_,_⟩ hst m rfl
    have hm := (h.isOf _ hst).1
    -- Another step may write to its own configuration; this one stands on the other side.
    by_cases ht : target = id
    · subst ht
      obtain rfl : n = m := Node.step.inj (Option.some.inj (hn.symm.trans hm))
      exact fits_guarding_own hpart.left hin hs fun hr => hown hr _ hst rfl
    · exact fits_guarding_other (Graph.mem_configs_filter hm (by simpa using ht))
  have hover : (guarding P (Graph.configs (g.nodes.filter (·.1 != id))) t.run.context
      t.world.store).Over t := by
    refine ⟨rfl,⟨hpart.left,Q,hpart.right,fun i hi => hpart.rightMem i ?_,hpart.disjoint⟩,?_⟩
    · simp only [List.mem_append,List.mem_cons,List.not_mem_nil,or_false] at hi ⊢
      rcases hi with (rfl | hi) | rfl
      · exact .inr (.inr rfl)
      · exact .inl hi
      · exact .inr (.inl rfl)
    · exact .refl P _
  obtain ⟨hstops,hend⟩ := trail_passes h hfits hover
  have reads {t' : Trip} (hk : t.world.store.Agrees P t'.world.store) :
      t'.world.store.read n.config = .ok config := (hpart.left.spells hk hin hs).read
  exact ⟨fun st hst => reads (hstops st hst).kept,reads hend.kept⟩

def aboard (g : Graph Value) (w : World) (run : Run) : Trip :=
  ⟨{ w with store := (g.plant w.store).1 },run⟩

theorem aboard_config {g : Graph Value} {w : World} {run : Run} {P : Nat → Prop}
    (hP : w.store.Region P) (hrun : ∀ i ∈ [run.context,run.last], i.In P)
    {target next : Option String} {stops : List (Stop Trip Item)} {t' : Trip}
    (h : (g.plant w.store).2.Trail step (aboard g w run) target stops t' next) {id : String}
    {m : Step Value} (hm : Entries.get? g.nodes id = some (.step m))
    (hown : SelfWriting m m.config → ∀ st ∈ stops, st.target ≠ id) :
    ∃ x, Entries.get? (g.plant w.store).2.nodes id = some (.step { m with config := x }) ∧
      (∀ st ∈ stops, st.before.world.store.read x = .ok m.config) ∧
      t'.world.store.read x = .ok m.config := by
  obtain ⟨x,d,hget,hs⟩ := Graph.plantNodes_step hm w.store
  -- The configuration goes to a side of its own, beside all that the run works with.
  have hempty : w.store.Parted (fun _ => False) P [] [run.context,run.last] :=
    ⟨⟨fun _ h => h.elim,fun _ _ h => h.elim⟩,hP,fun _ h => h.elim,by simp,hrun⟩
  obtain ⟨R,Q,hpart,-,-⟩ := Graph.plantNodes_parted (·.1 == id) hempty g.nodes
  have hx : x ∈ Graph.configs ((g.plant w.store).2.nodes.filter (·.1 == id)) ++ [] :=
    List.mem_append_left _ (Graph.mem_configs_filter hget (beq_self_eq_true id))
  have hown' := hpart.mono (List.forall_mem_singleton.2 hx) fun _ hi => hi
  exact ⟨x,hget,trail_config h hget hown' hs hown⟩

/-- However a walk of a graph ends, the configuration of every step reads as it was given, at each
stop and behind the last one; only a step that writes to its own configuration, and was visited, may
read otherwise. What is known of the run is only that its containers stand in the store. -/
theorem walk_configs {g : Graph Value} {w : World} {run : Run} {P : Nat → Prop}
    (hP : w.store.Region P) (hrun : ∀ i ∈ [run.context,run.last], i.In P) {limit : Nat}
    {walked : Walked} {t' : Trip}
    (h : ((g.plant w.store).2.walk step limit).run (aboard g w run) = (walked,t')) :
    ∃ target stops next,
      (g.plant w.store).2.Trail step (aboard g w run) target stops t' next ∧
      walked.visited = stops.map (·.node.id) ∧
      ∀ id m, Entries.get? g.nodes id = some (.step m) →
        (SelfWriting m m.config → ∀ st ∈ stops, st.target ≠ id) →
          ∃ x, Entries.get? (g.plant w.store).2.nodes id = some (.step { m with config := x }) ∧
            (∀ st ∈ stops, st.before.world.store.read x = .ok m.config) ∧
            t'.world.store.read x = .ok m.config := by
  cases hstart : (g.plant w.store).2.start with
  | error f =>
    rw [Graph.walk_stopped hstart] at h
    obtain ⟨rfl,rfl⟩ := Prod.mk.inj h
    refine ⟨none,[],none,.nil _ _,rfl,fun id m hm hown => ?_⟩
    exact aboard_config hP hrun (.nil _ none) hm hown
  | ok m =>
    obtain ⟨stops,next,htrail,hvisited,-,-⟩ :=
      Graph.walk_trail hstart step limit (aboard g w run)
    rw [h] at htrail hvisited
    refine ⟨_,stops,next,htrail,hvisited,fun id m hm hown => ?_⟩
    exact aboard_config hP hrun htrail hm hown

def formFrom (value : Value) : Step Value where
  id := "a"
  type := "multipart_form_upload"
  config := .object [("url",.text "http://h/f"),("formParts",.list [.object [("name",.text "d"),
    ("value",value),("fieldMappings",.list [.object [("fieldName",.text "b"),
      ("value",.text "t")]])]])]

def leading (m : Step Value) : Graph Value where
  nodes := [("s",.start { id := "s" }),("a",.step m)]
  edges := [{ id := "e", source := "s", target := "a" }]

def oneCell : World where
  store := { cells := #[.object [("order",.text "A7")]] }

def walkTo (m : Step Value) : Walked × Trip :=
  (((leading m).plant oneCell.store).2.walk step 5).run
    (aboard (leading m) oneCell { context := .cell 0 })

def letter : Value := .object [("a",.text "u")]

/-- A visited form reads as it was given when its document starts from text. A document that starts
from an object, here the first container that was planted, is filled in where it stands. -/
theorem walk_configs_formFrom :
    (∃ x, (walkTo (formFrom (.text "\x7b\x7d"))).1.visited = ["a"] ∧
      (walkTo (formFrom (.text "\x7b\x7d"))).2.world.store.read x =
        .ok (formFrom (.text "\x7b\x7d")).config) ∧
    Entries.keys (((leading (formFrom letter)).plant oneCell.store).1.entries (.cell 1)) = ["a"] ∧
    Entries.keys ((walkTo (formFrom letter)).2.world.store.entries (.cell 1)) = ["a","b"] := by
  refine ⟨?_,rfl,by decide +kernel⟩
  have hform : Steps.fillsInPlace (formFrom (.text "\x7b\x7d")).config = false := by decide +kernel
  have hvisited : (walkTo (formFrom (.text "\x7b\x7d"))).1.visited = ["a"] := by decide +kernel
  have hnode : Entries.get? (leading (formFrom (.text "\x7b\x7d"))).nodes "a" =
      some (.step (formFrom (.text "\x7b\x7d"))) := rfl
  generalize formFrom (.text "\x7b\x7d") = m at hform hnode hvisited ⊢
  rcases hw : walkTo m with ⟨walked,t'⟩
  rw [hw] at hvisited
  change (((leading m).plant oneCell.store).2.walk step 5).run (aboard (leading m) oneCell _) = _ at hw
  have hregion : oneCell.store.Region (· < 1) := Store.region_of_leaves (by
    simp [oneCell,Cell.layer,Layer.below,Item.In])
  obtain ⟨target,stops,next,-,-,hconfigs⟩ := walk_configs hregion (by simp [Item.In]) hw
  obtain ⟨x,-,-,hend⟩ := hconfigs "a" m hnode fun hr => absurd hr.2 (by simp [hform])
  exact ⟨x,hvisited,hend⟩

end Visit

end StepGraph
