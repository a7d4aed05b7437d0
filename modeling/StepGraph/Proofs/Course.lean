import StepGraph.Proofs.Routing
import StepGraph.Proofs.Trail
import StepGraph.Run.Visit

/-!
What one visit of a step comes to: the step is passed over, does nothing, is performed or fails.
A walk is a trail of such visits, and only the limit of visits ends it early without a failure.
-/
namespace StepGraph.Visit

open Attempt

variable {α : Type}

@[simp] theorem exec_work (p : Work α) (t : Trip) :
    (work p).exec t = ((p.exec t.world).1,{ t with world := (p.exec t.world).2 }) := rfl

@[simp] theorem exec_current (t : Trip) : current.exec t = (.ok t.run,t) := rfl

/-- Progress is recorded, and then it is settled whether the step is passed over. -/
def opening (n : Step Item) : Visit (Option String) := do
  noteProgress n
  verdict n

theorem step_eq (n : Step Item) :
    step n = opening n >>= fun v =>
      match v with
      | some reason => skip n reason
      | none => settle n := by
  rw [opening,bind_assoc]
  rfl

/-- The audit trail and the question whether to pass over the step give no trouble: only the step
itself may fail. -/
def Undisturbed (n : Step Item) (t : Trip) : Prop :=
  ∃ v t₁, (opening n).exec t = (.ok v,t₁) ∧
    match v with
    | some reason => ∃ h t₂, (skip n reason).exec t₁ = (.ok h,t₂)
    | none =>
      match (perform n).exec t₁ with
      | (.ok o,t₂) => ∃ h t₃, (performed n o).exec t₂ = (.ok h,t₃)
      | (.error f,t₂) => ∃ t₃, (recordFailure n f).exec t₂ = (.ok ⟨⟩,t₃)

/-- What a stop of a run comes to, by the node behind the route and by what it did. -/
inductive Course (st : Stop Trip Item) : Prop
  | marker (m : Start) (node : st.node = .start m) (exit : st.exit = .ok defaultHandle)
  | skipped (n : Step Item) (reason : String) (t : Trip) (node : st.node = .step n)
      (opened : (opening n).exec st.before = (.ok (some reason),t))
      (exit : st.exit = .ok defaultHandle)
  | unimplemented (n : Step Item) (t : Trip) (node : st.node = .step n)
      (opened : (opening n).exec st.before = (.ok none,t)) (kind : n.kind? = none)
      (exit : st.exit = .ok defaultHandle)
  | executed (n : Step Item) (t : Trip) (k : StepKind) (o : Outcome) (w : World)
      (node : st.node = .step n) (opened : (opening n).exec st.before = (.ok none,t))
      (kind : n.kind? = some k) (done : (k.perform t.run n).exec t.world = (.ok o,w))
      (exit : st.exit = .ok (EdgeMap.handleOr o.handle))
      (route : ∀ g : Graph Item,
        st.onward g = (EdgeMap.ofEdges g.edges).next? n.id o.handle)
  | raised (n : Step Item) (t : Trip) (k : StepKind) (f : Fault) (w : World)
      (executionLog extractionLog : Option Int) (node : st.node = .step n)
      (opened : (opening n).exec st.before = (.ok none,t)) (kind : n.kind? = some k)
      (done : (k.perform t.run n).exec t.world = (.error f,w))
      (exit : st.exit = .error (.run f.message executionLog extractionLog (some n.id)
        (some n.label) (some f)))

theorem skip_handle {n : Step Item} {reason : String} {t t' : Trip} {h : String}
    (hs : (skip n reason).exec t = (.ok h,t')) : h = defaultHandle := by
  unfold skip at hs
  obtain ⟨_,_,_,hs⟩ := exec_bind_eq_ok hs
  obtain ⟨_,_,_,hs⟩ := exec_bind_eq_ok hs
  obtain ⟨_,_,_,hs⟩ := exec_bind_eq_ok hs
  cases hs
  rfl

theorem performed_handle {n : Step Item} {o : Outcome} {t t' : Trip} {h : String}
    (hs : (performed n o).exec t = (.ok h,t')) : h = EdgeMap.handleOr o.handle := by
  obtain ⟨_,_,_,hs⟩ := exec_bind_eq_ok hs
  cases hs
  rfl

theorem perform_unknown {n : Step Item} (hk : n.kind? = none) (t : Trip) :
    ∃ o t', (perform n).exec t = (.ok o,t') ∧ o.handle = defaultHandle := by
  unfold perform
  rw [hk]
  exact ⟨_,_,rfl,rfl⟩

theorem perform_known {n : Step Item} {k : StepKind} (hk : n.kind? = some k) (t : Trip) :
    (perform n).exec t =
      match (k.perform t.run n).exec t.world with
      | (.ok o,w) =>
        (.ok o,⟨w,if k.keepsResponse then { t.run with last := o.response } else t.run⟩)
      | (.error f,w) => (.error f,⟨w,t.run⟩) := by
  unfold perform
  rw [hk]
  change ((work (k.perform t.run n) >>= fun o => _).exec t) = _
  rw [exec_bind,exec_work]
  rcases (k.perform t.run n).exec t.world with ⟨f | o,w⟩
  · rfl
  · cases k <;> rfl

theorem course_of_undisturbed {g : Graph Item} {st : Stop Trip Item} (hst : st.IsOf g step)
    (hu : ∀ n, st.node = .step n → Undisturbed n st.before) : Course st := by
  obtain ⟨target,node,before,after,exit⟩ := st
  obtain ⟨hn,hv⟩ := hst
  cases node with
  | start m => exact .marker m rfl hv.1
  | step n =>
    change (step n).exec before = (exit,after) at hv
    obtain ⟨v,t₁,ho,hu⟩ := hu n rfl
    rw [step_eq,exec_bind_ok ho] at hv
    cases v with
    | some reason =>
      obtain ⟨h,t₂,hs⟩ := hu
      rw [hs] at hv
      cases hv
      exact .skipped n reason t₁ rfl ho (congrArg _ (skip_handle hs))
    | none =>
      -- the step is performed, and only its own failure ends the visit
      change (settle n).exec t₁ = _ at hv
      unfold settle at hv
      rw [exec_bind,exec_caught] at hv
      cases hk : n.kind? with
      | none =>
        obtain ⟨o,t₂,hp,hh⟩ := perform_unknown hk t₁
        simp only [hp] at hu hv
        obtain ⟨h,t₃,hd⟩ := hu
        rw [hd] at hv
        cases hv
        refine .unimplemented n t₁ rfl ho hk ?_
        rw [performed_handle hd,hh]
        rfl
      | some k =>
        rw [perform_known hk] at hu hv
        rcases hd : (k.perform t₁.run n).exec t₁.world with ⟨f | o,w⟩
        · simp only [hd] at hu hv
          obtain ⟨t₃,hf⟩ := hu
          unfold failed at hv
          rw [exec_bind_ok hf] at hv
          cases hv
          exact .raised n t₁ k f w _ _ rfl ho hk hd rfl
        · simp only [hd] at hu hv
          obtain ⟨h,t₃,hf⟩ := hu
          rw [hf] at hv
          cases hv
          refine .executed n t₁ k o w rfl ho hk hd (congrArg _ (performed_handle hf)) fun g => ?_
          rw [performed_handle hf]
          exact EdgeMap.next?_handleOr (EdgeMap.ofEdges g.edges) n.id o.handle

theorem Course.report {st : Stop Trip Item} (h : Course st) {f : Fault} (hf : st.exit = .error f) :
    ∃ message executionLog extractionLog label cause,
      f = .run message executionLog extractionLog (some st.node.id) label (some cause) := by
  have handled {handle : String} (he : st.exit = .ok handle) : False := by
    rw [he] at hf
    cases hf
  cases h with
  | marker m node exit => exact (handled exit).elim
  | skipped n reason t node opened exit => exact (handled exit).elim
  | unimplemented n t node opened kind exit => exact (handled exit).elim
  | executed n t k o w node opened kind done exit route => exact (handled exit).elim
  | raised n t k cause w e x node opened kind done exit =>
    rw [exit] at hf
    cases hf
    rw [node]
    exact ⟨_,_,_,_,_,rfl⟩

/-- A run with an undisturbed audit trail visits just the nodes to which the handles of its visits
lead, and ends in one of three ways: no route leads on, the last visit failed, or the trail asks for
one visit more than allowed. -/
theorem walk_visits (g : Graph Item) (N : Nat) (m : Start) (t : Trip) (hm : g.start = .ok m)
    (hu : ∀ stops t' next, g.Trail step t (g.outset m) stops t' next → stops.length ≤ N →
      ∀ st ∈ stops, ∀ n, st.node = .step n → Undisturbed n st.before) :
    ∃ stops next,
      g.Trail step t (g.outset m) stops ((g.walk step N).run t).2 next ∧
      ((g.walk step N).run t).1.visited = stops.map (·.node.id) ∧
      (g.Keyed → ((g.walk step N).run t).1.visited = stops.map Stop.target) ∧
      stops.length ≤ N ∧ (∀ st ∈ stops, Course st) ∧
      g.Ending N N stops next ((g.walk step N).run t).1.outcome ∧
      (∀ f, ((g.walk step N).run t).1.outcome = .error f → f = .visitCap N ∨
        ∃ message executionLog extractionLog last label cause,
          f = .run message executionLog extractionLog (some last) label (some cause) ∧
            ((g.walk step N).run t).1.visited.getLast? = some last) ∧
      (((g.walk step N).run t).1.outcome = .error (.visitCap N) ↔
        ∃ full t' id, g.Trail step t (g.outset m) full t' (some id) ∧ full.length = N) ∧
      (((g.walk step N).run t).1.outcome = .error (.visitCap N) →
        ((g.walk step N).run t).1.visited.length = N) := by
  obtain ⟨stops,next,ht,hv,hl,he⟩ := Graph.walk_trail hm step N t
  have hc (st : Stop Trip Item) (hst : st ∈ stops) : Course st :=
    course_of_undisturbed (ht.isOf st hst) (hu stops _ next ht hl st hst)
  -- a visit that fails names its node, so its fault is never that of the limit
  have hr (st : Stop Trip Item) (hst : st ∈ stops) : st.exit ≠ .error (.visitCap N) := by
    intro h
    obtain ⟨_,_,_,_,_,h⟩ := (hc st hst).report h
    cases h
  refine ⟨stops,next,ht,hv,fun hk => hv.trans (ht.ids_eq_targets hk),hl,hc,he,?_,
    he.capped_iff ht hl hr,?_⟩
  · intro f hf
    rw [hf] at he
    rw [hv]
    cases he with
    | failed st f last fault passed =>
      obtain ⟨_,_,_,_,_,h⟩ := (hc st (List.mem_of_getLast? last)).report fault
      refine .inr ⟨_,_,_,_,_,_,h,?_⟩
      rw [List.getLast?_map,last]
      rfl
    | capped id passed full => exact .inl rfl
  · intro hf
    rw [hf] at he
    rw [hv,List.length_map]
    cases he with
    | failed st f last fault passed => exact absurd fault (hr st (List.mem_of_getLast? last))
    | capped id passed full => exact full

def selfLoop : Graph Item :=
  ⟨[("s",.start { id := "s" }),("a",.step { id := "a", type := "wait", config := .cell 1 })],
    [{ id := "in", source := "s", target := "a" },{ id := "back", source := "a", target := "a" }]⟩

def beforeLoop : Trip where
  world := { store := { cells := #[.object [("order",.text "A7")],.object []] } }
  run := { context := .cell 0 }

theorem walk_visits_selfLoop :
    ((selfLoop.walk step 1).run beforeLoop).1.outcome = .error (.visitCap 1) ∧
      ((selfLoop.walk step 1).run beforeLoop).1.visited.length = 1 := by
  obtain ⟨_,_,_,_,_,_,_,_,_,_,hn⟩ := walk_visits selfLoop 1 { id := "s" } beforeLoop rfl (by
      intro stops t' next ht hl st hst n hn
      match stops with
      | [] => cases hst
      | _ :: _ :: _ => simp at hl
      | [st'] =>
        obtain rfl : st = st' := List.mem_singleton.1 hst
        obtain ⟨hs,htg,hof,-⟩ := ht.cons_inv
        obtain ⟨target,node,before,after,exit⟩ := st
        obtain rfl : before = _ := hs
        obtain rfl : "a" = target := Option.some.inj htg
        obtain rfl : node = .step n := hn
        obtain rfl : _ = n := Node.step.inj (Option.some.inj hof.1)
        exact ⟨none,_,rfl,_,_,rfl⟩)
  exact ⟨rfl,hn rfl⟩

end StepGraph.Visit
