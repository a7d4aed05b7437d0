import StepGraph.Proofs.Exec
import StepGraph.Walk

/-!
The path that a walk takes, told without a limit. A `Trail` strings visits together: each begins in
the state that the one before it left, at the node behind the route that it took. A walk with at
most `N` visits goes along a trail, and `Ending` lists the three ways in which it stops.
-/
namespace StepGraph

/-- One visit of a walk: the route that led here and the node behind it, the state before and
after, and the handle or the fault with which the visit ended. -/
structure Stop (σ κ : Type) where
  target : String
  node : Node κ
  before : σ
  after : σ
  exit : Except Fault String

namespace Stop

variable {σ κ : Type}

/-- The graph has the node, and the visit went as visits go. A start marker is passed through. -/
def IsOf (g : Graph κ) (visit : Step κ → Attempt σ String) (st : Stop σ κ) : Prop :=
  Entries.get? g.nodes st.target = some st.node ∧
    match st.node with
    | .start _ => st.exit = .ok defaultHandle ∧ st.after = st.before
    | .step n => (visit n).exec st.before = (st.exit,st.after)

def onward (g : Graph κ) (st : Stop σ κ) : Option String :=
  match st.exit with
  | .ok handle => (EdgeMap.ofEdges g.edges).next? st.node.id handle
  | .error _ => none

def Passed (st : Stop σ κ) : Prop := ∃ handle, st.exit = .ok handle

theorem IsOf.unique {g : Graph κ} {visit : Step κ → Attempt σ String} {a b : Stop σ κ}
    (ha : a.IsOf g visit) (hb : b.IsOf g visit) (ht : a.target = b.target)
    (hs : a.before = b.before) : a = b := by
  obtain ⟨target,node,before,after,exit⟩ := a
  obtain ⟨target',node',before',after',exit'⟩ := b
  obtain rfl : target = target' := ht
  obtain rfl : before = before' := hs
  obtain ⟨hn,hv⟩ := ha
  obtain ⟨hn',hv'⟩ := hb
  obtain rfl : node = node' := Option.some.inj (hn.symm.trans hn')
  cases node with
  | start m =>
    have h : exit = .ok defaultHandle ∧ after = before := hv
    have h' : exit' = .ok defaultHandle ∧ after' = before := hv'
    rw [h.1,h.2,h'.1,h'.2]
  | step n =>
    have h : (visit n).exec before = (exit,after) := hv
    have h' : (visit n).exec before = (exit',after') := hv'
    obtain ⟨rfl,rfl⟩ := Prod.mk.inj (h.symm.trans h')
    rfl

end Stop

namespace Graph

variable {σ κ : Type}

/-- Stops one behind the other: from a state with a route, to a state with a route. -/
inductive Trail (g : Graph κ) (visit : Step κ → Attempt σ String) :
    σ → Option String → List (Stop σ κ) → σ → Option String → Prop
  | nil (s : σ) (target : Option String) : Trail g visit s target [] s target
  | cons {st : Stop σ κ} {stops : List (Stop σ κ)} {s' : σ} {next : Option String} :
      st.IsOf g visit → Trail g visit st.after (st.onward g) stops s' next →
      Trail g visit st.before (some st.target) (st :: stops) s' next

def outset (g : Graph κ) (m : Start) : Option String :=
  (EdgeMap.ofEdges g.edges).next? m.id defaultHandle

/-- How a walk that has `left` visits of `limit` left ends behind its stops, with a route left over
or without one. -/
inductive Ending (g : Graph κ) (limit : Int) (left : Nat) (stops : List (Stop σ κ)) :
    Option String → Except Fault Unit → Prop
  /-- No route leads on, or it leads to no node. -/
  | returned (next : Option String) (passed : ∀ st ∈ stops, st.Passed)
      (dangling : ∀ id, next = some id → Entries.get? g.nodes id = none ∧ stops.length < left) :
      Ending g limit left stops next (.ok ())
  /-- The last visit failed. -/
  | failed (st : Stop σ κ) (f : Fault) (last : stops.getLast? = some st)
      (fault : st.exit = .error f) (passed : ∀ st ∈ stops.dropLast, st.Passed) :
      Ending g limit left stops none (.error f)
  /-- A route leads on, and there is no visit left for it. -/
  | capped (id : String) (passed : ∀ st ∈ stops, st.Passed) (full : stops.length = left) :
      Ending g limit left stops (some id) (.error (.visitCap limit))

variable {g : Graph κ} {visit : Step κ → Attempt σ String}

theorem Ending.cons {limit : Int} {left : Nat} {stops : List (Stop σ κ)} {next : Option String}
    {outcome : Except Fault Unit} {st : Stop σ κ} (hst : st.Passed)
    (h : Ending g limit left stops next outcome) :
    Ending g limit (left + 1) (st :: stops) next outcome := by
  have front {stops : List (Stop σ κ)} (h : ∀ x ∈ stops, x.Passed) : ∀ x ∈ st :: stops, x.Passed :=
    List.forall_mem_cons.2 ⟨hst,h⟩
  cases h with
  | returned next passed dangling =>
    refine .returned next (front passed) fun id hid => ?_
    obtain ⟨hg,hlt⟩ := dangling id hid
    exact ⟨hg,Nat.succ_lt_succ hlt⟩
  | failed last f hl fault passed =>
    have hne : stops ≠ [] := by
      rintro rfl
      cases hl
    refine .failed last f ?_ fault ?_
    · rw [List.getLast?_cons,hl]
      rfl
    · rw [List.dropLast_cons_of_ne_nil hne]
      exact front passed
  | capped id passed full => exact .capped id (front passed) (congrArg Nat.succ full)

theorem walkFrom_trail (limit : Int) (left : Nat) (target : Option String) (s : σ) :
    ∃ stops next,
      g.Trail visit s target stops
        ((walkFrom g.nodes (EdgeMap.ofEdges g.edges) visit limit left target).run s).2 next ∧
      ((walkFrom g.nodes (EdgeMap.ofEdges g.edges) visit limit left target).run s).1.visited =
        stops.map (·.node.id) ∧ stops.length ≤ left ∧
      g.Ending limit left stops next
        ((walkFrom g.nodes (EdgeMap.ofEdges g.edges) visit limit left target).run s).1.outcome := by
  -- a stop that was passed is put in front of the trail that goes on behind it
  have front {st : Stop σ κ} (hst : st.IsOf g visit) (hp : st.Passed) {left : Nat} {w : Walked × σ}
      (h : ∃ stops next, g.Trail visit st.after (st.onward g) stops w.2 next ∧
        w.1.visited = stops.map (·.node.id) ∧ stops.length ≤ left ∧
        g.Ending limit left stops next w.1.outcome) :
      ∃ stops next, g.Trail visit st.before (some st.target) stops w.2 next ∧
        (w.1.after st.node.id).visited = stops.map (·.node.id) ∧ stops.length ≤ left + 1 ∧
        g.Ending limit (left + 1) stops next (w.1.after st.node.id).outcome := by
    obtain ⟨stops,next,ht,hv,hl,he⟩ := h
    exact ⟨st :: stops,next,.cons hst ht,congrArg (_ :: ·) hv,Nat.succ_le_succ hl,he.cons hp⟩
  induction left generalizing target s with
  | zero =>
    cases target with
    | none => exact ⟨[],none,.nil s none,rfl,Nat.le_refl 0,.returned none (by simp) (by simp)⟩
    | some id => exact ⟨[],some id,.nil s _,rfl,Nat.le_refl 0,.capped id (by simp) rfl⟩
  | succ left ih =>
    cases target with
    | none => exact ⟨[],none,.nil s none,rfl,Nat.zero_le _,.returned none (by simp) (by simp)⟩
    | some id =>
      unfold walkFrom
      cases hn : Entries.get? g.nodes id with
      | none =>
        refine ⟨[],some id,.nil s _,rfl,Nat.zero_le _,.returned _ (by simp) ?_⟩
        rintro id' ⟨⟩
        exact ⟨hn,Nat.succ_pos left⟩
      | some node =>
        cases node with
        | start m =>
          let st : Stop σ κ := ⟨id,.start m,s,s,.ok defaultHandle⟩
          have hst : st.IsOf g visit := ⟨hn,rfl,rfl⟩
          exact front hst ⟨_,rfl⟩ (ih (st.onward g) s)
        | step n =>
          rcases hv : (visit n).exec s with ⟨exit,s'⟩
          let st : Stop σ κ := ⟨id,.step n,s,s',exit⟩
          have hst : st.IsOf g visit := ⟨hn,hv⟩
          change (visit n).run.run s = (exit,s') at hv
          simp only [StateT.run_bind,hv]
          cases exit with
          | ok handle => exact front hst ⟨handle,rfl⟩ (ih (st.onward g) s')
          | error f =>
            exact ⟨[st],none,.cons hst (.nil _ _),rfl,by simp,
              .failed st f rfl rfl (by simp)⟩

theorem walk_stopped {f : Fault} (hm : g.start = .error f) (visit : Step κ → Attempt σ String)
    (N : Nat) : g.walk visit N = pure (.stopped f) := by
  unfold walk
  rw [hm]

theorem walk_trail {m : Start} (hm : g.start = .ok m) (visit : Step κ → Attempt σ String) (N : Nat)
    (s : σ) :
    ∃ stops next, g.Trail visit s (g.outset m) stops ((g.walk visit N).run s).2 next ∧
      ((g.walk visit N).run s).1.visited = stops.map (·.node.id) ∧ stops.length ≤ N ∧
      g.Ending N N stops next ((g.walk visit N).run s).1.outcome := by
  have hw : g.walk visit N =
      walkFrom g.nodes (EdgeMap.ofEdges g.edges) visit N N (g.outset m) := by
    unfold walk
    rw [hm]
    rfl
  rw [hw]
  exact walkFrom_trail N N (g.outset m) s

theorem Trail.cons_inv {s s' : σ} {target next : Option String} {st : Stop σ κ}
    {stops : List (Stop σ κ)} (h : g.Trail visit s target (st :: stops) s' next) :
    st.before = s ∧ target = some st.target ∧ st.IsOf g visit ∧
      g.Trail visit st.after (st.onward g) stops s' next := by
  cases h with
  | cons hst ht => exact ⟨rfl,rfl,hst,ht⟩

theorem Trail.isOf {s s' : σ} {target next : Option String} {stops : List (Stop σ κ)}
    (h : g.Trail visit s target stops s' next) : ∀ st ∈ stops, st.IsOf g visit := by
  induction h with
  | nil => simp
  | cons hst _ ih => exact List.forall_mem_cons.2 ⟨hst,ih⟩

theorem Trail.nil_inv {s s' : σ} {target next : Option String}
    (h : g.Trail visit s target [] s' next) : s' = s ∧ next = target := by
  cases h with
  | nil => exact ⟨rfl,rfl⟩

theorem Trail.keeps {R : σ → σ → Prop} [IsPreorder σ R] (hR : ∀ n, Attempt.Keeps R (visit n))
    {s s' : σ} {target next : Option String} {stops : List (Stop σ κ)}
    (h : g.Trail visit s target stops s' next) : R s s' := by
  induction h with
  | nil s target => exact refl_of R s
  | @cons st stops s' next hst _ ih =>
    refine trans_of R ?_ ih
    obtain ⟨target,node,before,after,exit⟩ := st
    obtain ⟨-,hv⟩ := hst
    cases node with
    | start m =>
      obtain ⟨rfl,rfl⟩ : exit = .ok defaultHandle ∧ after = before := hv
      exact refl_of R after
    | step n =>
      have h := hR n before
      change (visit n).exec before = (exit,after) at hv
      rw [hv] at h
      exact h

theorem Trail.after_last {s s' : σ} {target next : Option String} {stops : List (Stop σ κ)}
    (h : g.Trail visit s target stops s' next) {st : Stop σ κ} (hst : stops.getLast? = some st) :
    st.after = s' := by
  induction h with
  | nil => cases hst
  | @cons first rest s' next _ ht ih =>
    cases rest with
    | nil =>
      cases hst
      exact ht.nil_inv.1.symm
    | cons second rest =>
      rw [List.getLast?_cons_cons] at hst
      exact ih hst

theorem Trail.continues {s s₁ s₂ : σ} {target n₁ n₂ : Option String} {a b : List (Stop σ κ)}
    (ha : g.Trail visit s target a s₁ n₁) (hb : g.Trail visit s target b s₂ n₂)
    (hl : a.length ≤ b.length) : ∃ rest, b = a ++ rest ∧ g.Trail visit s₁ n₁ rest s₂ n₂ := by
  induction ha generalizing b with
  | nil s target => exact ⟨b,rfl,hb⟩
  | @cons st stops s' next hst ht ih =>
    cases b with
    | nil => simp at hl
    | cons st' rest =>
      obtain ⟨hs,htg,hst',hb⟩ := hb.cons_inv
      obtain rfl : st = st' := hst.unique hst' (Option.some.inj htg) hs.symm
      obtain ⟨rest',rfl,h⟩ := ih hb (Nat.le_of_succ_le_succ hl)
      exact ⟨rest',rfl,h⟩

/-- The limit ends a walk just where a trail of that many stops has a route that leads on. -/
theorem Ending.capped_iff {N : Nat} {s s' : σ} {target next : Option String}
    {stops : List (Stop σ κ)} {outcome : Except Fault Unit}
    (ht : g.Trail visit s target stops s' next) (hl : stops.length ≤ N)
    (he : g.Ending N N stops next outcome)
    (hc : ∀ st ∈ stops, st.exit ≠ .error (.visitCap N)) :
    outcome = .error (.visitCap N) ↔
      ∃ full s'' id, g.Trail visit s target full s'' (some id) ∧ full.length = N := by
  constructor
  · rintro rfl
    cases he with
    | failed st f last fault passed => exact absurd fault (hc st (List.mem_of_getLast? last))
    | capped id passed hfull => exact ⟨stops,s',id,ht,hfull⟩
  · rintro ⟨full,s'',id,hf,hfull⟩
    obtain ⟨rest,rfl,hr⟩ := ht.continues hf (by omega)
    cases he with
    | returned next passed dangling =>
      cases hr with
      | nil =>
        have := (dangling id rfl).2
        simp at hfull
        omega
      | cons hst _ =>
        have := (dangling _ rfl).1
        rw [hst.1] at this
        cases this
    | failed st f last fault passed => cases hr
    | capped id passed hfull => rfl

def Keyed (g : Graph κ) : Prop := ∀ id n, Entries.get? g.nodes id = some n → n.id = id

theorem Trail.ids_eq_targets {s s' : σ} {target next : Option String} {stops : List (Stop σ κ)}
    (h : g.Trail visit s target stops s' next) (hk : g.Keyed) :
    stops.map (·.node.id) = stops.map Stop.target :=
  List.map_congr_left fun st hst => hk st.target st.node (h.isOf st hst).1

end Graph

end StepGraph
