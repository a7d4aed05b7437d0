import StepGraph.Proofs.RunTogether

/-!
A run cut into turns. It opens its records in one turn and prepares its walk in another, then visits
one node a turn, and closes its record in a last turn. Taking turns until there is none left is
running.
-/
namespace StepGraph

open Attempt Work

namespace Graph

variable {σ κ : Type} {nodes : Entries (Node κ)} {edges : EdgeMap}
  {visit : Step κ → Attempt σ String} {limit : Int} {left : Nat} {id : String} {s s' : σ}

theorem walkFrom_start {n : Start} (hn : Entries.get? nodes id = some (.start n)) :
    (walkFrom nodes edges visit limit (left + 1) (some id)).run s =
      (Walked.after n.id <$>
        walkFrom nodes edges visit limit left (edges.next? n.id defaultHandle)).run s := by
  rw [walkFrom,hn]

theorem walkFrom_passed {n : Step κ} {handle : String}
    (hn : Entries.get? nodes id = some (.step n)) (hv : (visit n).exec s = (.ok handle,s')) :
    (walkFrom nodes edges visit limit (left + 1) (some id)).run s =
      (Walked.after n.id <$>
        walkFrom nodes edges visit limit left (edges.next? n.id handle)).run s' := by
  change (visit n).run.run s = (.ok handle,s') at hv
  rw [walkFrom,hn]
  simp only [StateT.run_bind,hv]
  rfl

theorem walkFrom_failed {n : Step κ} {f : Fault} (hn : Entries.get? nodes id = some (.step n))
    (hv : (visit n).exec s = (.error f,s')) :
    (walkFrom nodes edges visit limit (left + 1) (some id)).run s =
      (.after n.id (.stopped f),s') := by
  change (visit n).run.run s = (.error f,s') at hv
  rw [walkFrom,hn]
  simp only [StateT.run_bind,hv]
  rfl

end Graph

namespace Launch

/-- A walk under way, with the nodes it has visited and those it may still visit. -/
structure Leg where
  graph : Graph Item
  run : Run
  visited : List String
  left : Nat
  next : Option String

namespace Leg

def onward (l : Leg) (id handle : String) (run : Run) : Leg :=
  { l with
    run := run
    visited := l.visited ++ [id]
    left := l.left - 1
    next := (EdgeMap.ofEdges l.graph.edges).next? id handle }

/-- The walk as it ended, behind the nodes that were visited before. -/
def ended (l : Leg) (w : Walked) : Walked := { w with visited := l.visited ++ w.visited }

def visit (l : Leg) (w : World) : (Leg ⊕ Walked × Run) × World :=
  match l.next, l.left with
  | none, _ => (.inr (l.ended .arrived,l.run),w)
  | some _, 0 => (.inr (l.ended (.stopped (.visitCap visitLimit)),l.run),w)
  | some id, _ + 1 =>
    match Entries.get? l.graph.nodes id with
    | none => (.inr (l.ended .arrived,l.run),w)
    | some (.start n) => (.inl (l.onward n.id defaultHandle l.run),w)
    | some (.step n) =>
      match (Visit.step n).exec ⟨w,l.run⟩ with
      | (.ok handle,t) => (.inl (l.onward n.id handle t.run),t.world)
      | (.error f,t) => (.inr (l.ended (.after n.id (.stopped f)),t.run),t.world)

def rest (l : Leg) (w : World) : (Walked × Run) × World :=
  let r := (Graph.walkFrom l.graph.nodes (EdgeMap.ofEdges l.graph.edges) Visit.step visitLimit
    l.left l.next).run ⟨w,l.run⟩
  ((l.ended r.1,r.2.run),r.2.world)

theorem rest_onward {l : Leg} {left : Nat} {id n handle : String} {run : Run} {w w' : World}
    (hl : l.left = left + 1) (hn : l.next = some id)
    (hw : (Graph.walkFrom l.graph.nodes (EdgeMap.ofEdges l.graph.edges) Visit.step visitLimit
        (left + 1) (some id)).run ⟨w,l.run⟩ =
      (Walked.after n <$> Graph.walkFrom l.graph.nodes (EdgeMap.ofEdges l.graph.edges) Visit.step
        visitLimit left ((EdgeMap.ofEdges l.graph.edges).next? n handle)).run ⟨w',run⟩) :
    (l.onward n handle run).rest w' = l.rest w := by
  unfold rest
  rw [hl,hn,hw]
  simp only [onward,ended,hl,Nat.add_sub_cancel,List.append_assoc,List.singleton_append]
  rfl

theorem visit_rest (l : Leg) (w : World) :
    (∃ l' w', l.visit w = (.inl l',w') ∧ l'.left + 1 = l.left ∧ l'.rest w' = l.rest w) ∨
      ∃ p w', l.visit w = (.inr p,w') ∧ l.rest w = (p,w') := by
  unfold visit
  cases hnext : l.next with
  | none =>
    refine .inr ⟨_,_,rfl,?_⟩
    unfold rest
    rw [hnext]
    cases l.left <;> rfl
  | some id =>
    cases hleft : l.left with
    | zero =>
      refine .inr ⟨_,_,rfl,?_⟩
      unfold rest
      rw [hnext,hleft]
      rfl
    | succ left =>
      simp only
      cases hn : Entries.get? l.graph.nodes id with
      | none =>
        refine .inr ⟨_,_,rfl,?_⟩
        unfold rest
        rw [hnext,hleft,Graph.walkFrom,hn]
        rfl
      | some n =>
        cases n with
        | start n =>
          refine .inl ⟨_,_,rfl,?_,rest_onward hleft hnext (Graph.walkFrom_start hn)⟩
          simp only [onward,hleft,Nat.add_sub_cancel]
        | step n =>
          simp only
          rcases hv : (Visit.step n).exec ⟨w,l.run⟩ with ⟨f | handle,t⟩
          · refine .inr ⟨_,_,rfl,?_⟩
            unfold rest
            rw [hnext,hleft,Graph.walkFrom_failed hn hv]
          · refine .inl ⟨_,_,rfl,?_,rest_onward hleft hnext (Graph.walkFrom_passed hn hv)⟩
            simp only [onward,hleft,Nat.add_sub_cancel]

def outset (g : Graph Item) (run : Run) : Leg ⊕ Walked × Run :=
  match g.start with
  | .error f => .inr (.stopped f,run)
  | .ok m => .inl ⟨g,run,[],visitLimit.toNat,g.outset m⟩

theorem exec_traverse (g : Graph Item) (run : Run) (w : World) :
    ∃ p : (Walked × Run) × World, (traverse g run).exec w = (.ok p.1,p.2) ∧
      ((∃ l, outset g run = .inl l ∧ l.left = visitLimit.toNat ∧ l.rest w = p) ∨
        outset g run = .inr p.1 ∧ p.2 = w) := by
  refine ⟨((((g.walk Visit.step visitLimit).run ⟨w,run⟩).1,
    ((g.walk Visit.step visitLimit).run ⟨w,run⟩).2.run),
    ((g.walk Visit.step visitLimit).run ⟨w,run⟩).2.world),rfl,?_⟩
  unfold outset Graph.walk
  cases g.start with
  | error f => exact .inr ⟨rfl,rfl⟩
  | ok m => exact .inl ⟨_,rfl,rfl,rfl⟩

end Leg

/-- Where a run of a request stands between two of its turns. -/
inductive Stage where
  | waiting
  | opened (workflow : Int) (kind : Option DocumentKind) (rec : Recorder)
  | unprepared (rec : Recorder) (f : Fault)
  | walking (rec : Recorder) (context : Item) (l : Leg)
  | walked (rec : Recorder) (context : Item) (p : Walked × Run)
  | closed (rec : Option Recorder) (p : Option (Walked × Run)) (done : Except Fault Report)

def journey (mode : Mode) (r : Request) : Work (Walked × Run) :=
  match r.workflow with
  | none => throw unnamed
  | some workflow => departure mode workflow r >>= fun d => traverse d.1 d.2

namespace Stage

variable (mode : Mode) (r : Request)

def turn : Stage → World → Stage × World
  | .waiting, w =>
    match r.workflow with
    | none => (.closed none none (.error unnamed),w)
    | some workflow =>
      match (opening mode workflow r).exec w with
      | (.error f,w) => (.closed none none (.error f),w)
      | (.ok (kind,rec),w) => (.opened workflow kind rec,w)
  | .opened workflow kind rec, w =>
    match (prepare mode workflow r kind (formatOf mode r kind)).exec w with
    | (.error f,w) => (.unprepared rec f,w)
    | (.ok start,w) =>
      ((Leg.outset start.graph (outset rec workflow (formatOf mode r kind) start)).elim
        (.walking rec start.context) (.walked rec start.context),w)
  | .unprepared rec f, w =>
    let done := (fail rec none f >>= throw : Work Report).exec w
    (.closed (some rec) none done.1,done.2)
  | .walking rec context l, w =>
    let p := l.visit w
    (p.1.elim (.walking rec context) (.walked rec context),p.2)
  | .walked rec context p, w =>
    let done := (conclude rec context p).exec w
    (.closed (some rec) (some p) done.1,done.2)
  | .closed rec p done, w => (.closed rec p done,w)

/-- What comes of a run from a stage on: its walk, if it sets out, what it gives back, and its world. -/
def ahead : Stage → World → Option (Walked × Run) × Except Fault Report × World
  | .waiting, w => (((journey mode r).exec w).1.toOption,(run mode r).exec w)
  | .opened workflow kind rec, w =>
    let prepared := prepare mode workflow r kind (formatOf mode r kind)
    (((prepared >>= fun start => traverse start.graph
        (outset rec workflow (formatOf mode r kind) start)).exec w).1.toOption,
      (attempt prepared >>= proceed rec workflow (formatOf mode r kind)).exec w)
  | .unprepared rec f, w => (none,(fail rec none f >>= throw : Work Report).exec w)
  | .walking rec context l, w =>
    (some (l.rest w).1,(conclude rec context (l.rest w).1).exec (l.rest w).2)
  | .walked rec context p, w => (some p,(conclude rec context p).exec w)
  | .closed _ p done, w => (p,done,w)

theorem ahead_outset (rec : Recorder) (context : Item) (g : Graph Item) (run : Run) (w : World) :
    ahead mode r ((Leg.outset g run).elim (.walking rec context) (.walked rec context)) w =
      (((traverse g run).exec w).1.toOption,(traverse g run >>= conclude rec context).exec w) := by
  obtain ⟨p,ht,⟨l,hl,-,hrest⟩ | ⟨hp,hw⟩⟩ := Leg.exec_traverse g run w <;> rw [exec_bind_ok ht,ht]
  · rw [hl,← hrest]
    rfl
  · rw [hp,hw]
    rfl

/-- A turn does a part of what is to come, and nothing else. -/
theorem turn_ahead (s : Stage) (w : World) :
    (s.turn mode r w).1.ahead mode r (s.turn mode r w).2 = s.ahead mode r w := by
  cases s with
  | waiting =>
    unfold turn ahead
    cases hr : r.workflow with
    | none =>
      unfold run journey
      rw [hr]
      rfl
    | some workflow =>
      rw [run_eq mode hr]
      unfold journey departure
      rw [hr]
      simp only [bind_assoc,exec_bind (opening mode workflow r)]
      rcases (opening mode workflow r).exec w with ⟨f | ⟨kind,rec⟩,w₁⟩
      · rfl
      · simp only [pure_bind]
  | opened workflow kind rec =>
    rw [turn,ahead]
    unfold attempt
    rw [exec_bind,exec_bind,exec_caught]
    rcases (prepare mode workflow r kind (formatOf mode r kind)).exec w with ⟨f | start,w₁⟩
    · rfl
    · exact ahead_outset mode r rec start.context start.graph _ w₁
  | unprepared rec f => rfl
  | walking rec context l =>
    -- one visit is the first of those that are left
    have hahead : ahead mode r (.walking rec context l) w =
      (some (l.rest w).1,(conclude rec context (l.rest w).1).exec (l.rest w).2) := rfl
    rw [turn,hahead]
    rcases l.visit_rest w with ⟨l',w',hv,-,hl⟩ | ⟨p,w',hv,hl⟩
    · rw [hv,← hl]
      rfl
    · rw [hv,hl]
      rfl
  | walked rec context p => rfl
  | closed rec p done => rfl

def turnLimit : Nat := visitLimit.toNat + 4

def turns : Stage → Nat
  | .waiting => turnLimit
  | .opened .. => visitLimit.toNat + 3
  | .walking _ _ l => l.left + 2
  | .unprepared .. | .walked .. => 1
  | .closed .. => 0

theorem turn_turns (s : Stage) (w : World) : (s.turn mode r w).1.turns ≤ s.turns - 1 := by
  cases s with
  | waiting =>
    unfold turn
    simp only
    split
    · exact Nat.zero_le _
    · split
      · exact Nat.zero_le _
      · exact Nat.le_refl _
  | opened workflow kind rec =>
    rw [turn]
    rcases (prepare mode workflow r kind (formatOf mode r kind)).exec w with ⟨f | start,w₁⟩
    · exact Nat.succ_le_succ (Nat.zero_le _)
    · obtain ⟨p,-,⟨l,hl,hleft,-⟩ | ⟨hp,-⟩⟩ :=
        Leg.exec_traverse start.graph (outset rec workflow (formatOf mode r kind) start) w₁ <;>
        simp only
      · rw [hl]
        exact Nat.le_of_eq (congrArg (· + 2) hleft)
      · rw [hp]
        exact Nat.succ_le_succ (Nat.zero_le _)
  | unprepared rec f => exact Nat.le_refl _
  | walking rec context l =>
    rw [turn]
    rcases l.visit_rest w with ⟨l',w',hv,hleft,-⟩ | ⟨p,w',hv,-⟩ <;> rw [hv]
    · exact Nat.le_of_eq (congrArg (· + 1) hleft)
    · exact Nat.succ_le_succ (Nat.zero_le _)
  | walked rec context p => exact Nat.le_refl _
  | closed rec p done => exact Nat.le_refl _

def taken (w : World) : Nat → Stage × World
  | 0 => (.waiting,w)
  | k + 1 => (taken w k).1.turn mode r (taken w k).2

theorem taken_ahead (w : World) (k : Nat) :
    (taken mode r w k).1.ahead mode r (taken mode r w k).2 =
      (((journey mode r).exec w).1.toOption,(run mode r).exec w) := by
  induction k with
  | zero => rfl
  | succ k ih => exact (turn_ahead mode r _ _).trans ih

theorem taken_turns (w : World) (k : Nat) : (taken mode r w k).1.turns ≤ turnLimit - k := by
  induction k with
  | zero => exact Nat.le_refl _
  | succ k ih =>
    have := turn_turns mode r (taken mode r w k).1 (taken mode r w k).2
    rw [taken]
    omega

theorem taken_closed (w : World) {k : Nat} (hk : (taken mode r w k).1.turns = 0) :
    ∃ rec, taken mode r w k = (.closed rec ((journey mode r).exec w).1.toOption
      ((run mode r).exec w).1,((run mode r).exec w).2) := by
  have hahead := taken_ahead mode r w k
  generalize taken mode r w k = q at hk hahead ⊢
  obtain ⟨s,w'⟩ := q
  cases s with
  | closed rec p done =>
    have hp : p = ((journey mode r).exec w).1.toOption := congrArg Prod.fst hahead
    have hdone : done = ((run mode r).exec w).1 := congrArg (·.2.1) hahead
    have hw : w' = ((run mode r).exec w).2 := congrArg (·.2.2) hahead
    exact ⟨rec,by rw [hp,hdone,hw]⟩
  | _ => simp [turns,turnLimit] at hk

end Stage

end Launch

end StepGraph
