import Mathlib.Data.List.Forall2
import StepGraph.Proofs.Together
import StepGraph.Proofs.VisitInStep
import StepGraph.Proofs.VisitLog

/-!
Steps and visits of two runs that differ in their audit trails only. Both runs may write to it or one
of them may have no record of its own; a step does the same in both. Where the first run loses no
write, behind every visit the two runs have the same context, the same last response and the same
calls behind them.
-/
namespace StepGraph

open Attempt Work

namespace Recorder

/-- A recorder that may have lost the numbers of its records. -/
inductive MayLoseNumbers (r : Recorder) : Recorder → Prop
  | intro (log extractionLog : Option Int) (hl : MayBeGone Eq r.log log)
      (hx : MayBeGone Eq r.extractionLog extractionLog) :
      MayLoseNumbers r { r with log := log, extractionLog := extractionLog }

theorem MayLoseNumbers.refl (r : Recorder) : r.MayLoseNumbers r :=
  .intro r.log r.extractionLog (.refl Eq.refl _) (.refl Eq.refl _)

theorem MayLoseNumbers.record? {r r' : Recorder} (h : r.MayLoseNumbers r') :
    r'.record? = r.record? ∨ r'.record? = none := by
  obtain ⟨log,x,hl,-⟩ := h
  unfold Recorder.record?
  generalize r.log = before at hl
  cases hl with
  | kept h => exact .inl (by rw [h])
  | gone => exact .inr rfl

theorem all_tolerated {ρ : Type} (t : Table ρ) :
    (∃ rows, t.all = .ok rows) ∨ ∃ f, t.all = .error f ∧ f.isHarmless = true := by
  unfold Table.all
  split
  · exact .inl ⟨_,rfl⟩
  · exact .inr ⟨_,rfl,rfl⟩

theorem find_tolerated {ρ : Type} [Numbered ρ] {t : Table ρ} {id : Int} {found : Option ρ}
    (h : t.find id = .ok found) (t' : Table ρ) :
    (∃ found', t'.find id = .ok found') ∨ ∃ f, t'.find id = .error f ∧ f.isHarmless = true := by
  have hheld : ∃ i, held id = .ok i := by
    unfold Table.find at h
    cases ha : t.all with
    | error f =>
      rw [ha] at h
      cases h
    | ok rows =>
      rw [ha] at h
      cases hi : held id with
      | error f =>
        rw [hi] at h
        cases h
      | ok i => exact ⟨i,rfl⟩
  obtain ⟨i,hi⟩ := hheld
  unfold Table.find
  rw [hi]
  rcases all_tolerated t' with ⟨rows,ha⟩ | ⟨f,ha,hf⟩ <;> rw [ha]
  · exact .inl ⟨_,rfl⟩
  · exact .inr ⟨f,rfl,hf⟩

theorem newStep_tolerates {r r' : Recorder} (hr : r.MayLoseNumbers r') (run : Int) (n : Node Item)
    (e : LogEntry) {w w' : World} (hw : w.Alike w') :
    Tolerates (fun _ _ => True) w w' (r.newStep run n e) (r'.newStep run n e) := by
  obtain ⟨log,x,-,-⟩ := hr
  obtain ⟨l,rfl⟩ := hw
  refine .look (u := database) (v := database) rfl rfl ?_
  rintro db ⟨⟩
  refine .inl ⟨_,rfl,.look rfl rfl fun rows hrows => ?_⟩
  refine (all_tolerated l.stepLogs).imp_left fun ⟨rows',h⟩ => ⟨rows',h,?_⟩
  refine .same rfl rfl fun _ _ => ?_
  refine .same rfl rfl fun _ _ => .same rfl rfl fun _ _ => ?_
  refine .same rfl rfl fun _ _ => .same rfl rfl fun _ _ => ?_
  refine .same rfl rfl fun _ _ => .same rfl rfl fun _ _ => ?_
  exact .set ⟨{ l with stepLogs := _ },rfl⟩ trivial

theorem changeRecord_tolerates (id : Int) (context : Option Value)
    (f : ExecutionLog → ExecutionLog) {w w' : World} (hw : w.Alike w') :
    Tolerates Eq w w' (changeRecord id context f) (changeRecord id context f) := by
  obtain ⟨l,rfl⟩ := hw
  refine .look (u := database) (v := database) rfl rfl ?_
  rintro db ⟨⟩
  refine .inl ⟨_,rfl,.look rfl rfl fun found hfound => ?_⟩
  refine (find_tolerated hfound l.executionLogs).imp_left fun ⟨found',h⟩ => ⟨found',h,?_⟩
  cases found with
  | none => exact fun x w₁ hx => by cases hx
  | some row =>
    cases found' with
    | none => exact fun _ _ _ => .inr ⟨missingRecord id,rfl,rfl⟩
    | some row' =>
      refine .same rfl rfl fun kept _ => .same (u := moment) (v := moment) rfl rfl fun now _ => ?_
      rintro _ _ ⟨⟩
      exact .inl ⟨_,_,rfl,⟨{ l with executionLogs := _ },rfl⟩,rfl⟩

theorem add_together {r r' : Recorder} (hr : r.MayLoseNumbers r') (n : Node Item) (e : LogEntry) :
    Matches World.lost World.Alike Eq (MayBeGone fun _ _ => True) (r.add n e) (r'.add n e) := by
  have added {run : Int} (w : World) (id : Int) (db : Database) (h : StepAdded run n e w id db) :
      w.Alike { w with db := db } := by
    obtain ⟨row,rfl,-⟩ := h
    exact ⟨{ w.logs with stepLogs := _ },rfl⟩
  have hadd {r : Recorder} {run : Int} (h : r.record? = some run) :
      r.add n e = logWrite (r.newStep run n e) := by
    unfold add
    rw [h]
  cases hrec : r.record? with
  | none =>
    have hrec' : r'.record? = none := hr.record?.elim (·.trans hrec) fun h => h
    rw [add_none hrec,add_none hrec']
    exact .pure (.gone none)
  | some run =>
    rw [hadd hrec]
    rcases hr.record? with h | h
    · rw [hadd (h.trans hrec)]
      exact logWrite_together (writes_newStep r run n e) added fun w w' =>
        newStep_tolerates hr run n e
    · rw [add_none h]
      exact logWrite_omitted (writes_newStep r run n e) added

theorem change_together {r r' : Recorder} (hr : r.MayLoseNumbers r') (context : Option Value)
    (f : Time.Moment → ExecutionLog → ExecutionLog) :
    Together (r.change context f) (r'.change context f) := by
  have changed {id : Int} {g : ExecutionLog → ExecutionLog} (w : World) (x : Unit) (db : Database)
      (h : Changed id context g w x db) : w.Alike { w with db := db } := by
    obtain ⟨row,c,now,-,-,rfl⟩ := h
    exact ⟨{ w.logs with executionLogs := _ },rfl⟩
  have hchange {r : Recorder} {id : Int} (h : r.record? = some id) :
      r.change context f = moment >>= fun now =>
        discard <| logWrite (changeRecord id context (f now)) := by
    unfold change
    rw [h]
  cases hrec : r.record? with
  | none =>
    have hrec' : r'.record? = none := hr.record?.elim (·.trans hrec) fun h => h
    rw [change_none hrec,change_none hrec']
    exact .pure rfl
  | some id =>
    rw [hchange hrec]
    rcases hr.record? with h | h
    · rw [hchange (h.trans hrec)]
      exact .appendOnly .moment fun now => (logWrite_together (F := Eq)
        (writes_changeRecord id context (f now)) changed fun w w' =>
          changeRecord_tolerates id context (f now)).discard MayBeGone.exists
    · rw [change_none h]
      have omitted : Together _ (moment >>= fun _ => discard (pure none : Work (Option Unit))) :=
        .appendOnly .moment fun now => (logWrite_omitted (F := Eq)
          (writes_changeRecord id context (f now)) changed).discard MayBeGone.exists
      exact omitted

theorem MayLoseNumbers.level {r r' : Recorder} (hr : r.MayLoseNumbers r') :
    Level World.lost World.Alike r r' where
  add n e := (add_together hr n e).discard MayBeGone.exists
  change context f _ := change_together hr context f

end Recorder

/-- Two runs that differ in the numbers of their records only. -/
inductive Run.Alike (run : Run) : Run → Prop
  | intro (recorder : Option Recorder) (h : Option.Rel Recorder.MayLoseNumbers run.recorder recorder) :
      Run.Alike run { run with recorder := recorder }

theorem Run.Alike.refl (run : Run) : run.Alike run := by
  refine .intro run.recorder ?_
  cases run.recorder with
  | none => exact .none
  | some r => exact .some (.refl r)

theorem Run.inStep_alike : InStep World.lost World.Alike Run.Alike where
  plain h := Together.plain h
  forLog h := Together.forLog (Together.plain h)
  runs := by
    rintro run _ ⟨recorder,h⟩
    exact ⟨recorder,rfl,rel_imp (fun _ _ => Recorder.MayLoseNumbers.level) h⟩
  respond := by
    rintro run _ x ⟨recorder,h⟩
    exact .intro recorder h
  counts := .inr Run.Alike.refl

/-- Faults that differ at most in numbers of records, which may be gone. -/
inductive Fault.MayLoseNumbers : Fault → Fault → Prop
  | same (f : Fault) : MayLoseNumbers f f
  | run (message : String) {executionLog executionLog' extractionLog extractionLog' : Option Int}
      (node label : Option String) (cause : Option Fault)
      (hl : MayBeGone Eq executionLog executionLog') (hx : MayBeGone Eq extractionLog extractionLog') :
      MayLoseNumbers (.run message executionLog extractionLog node label cause)
        (.run message executionLog' extractionLog' node label cause)

theorem Fault.MayLoseNumbers.of_eq {f f' : Fault} (h : f = f') : f.MayLoseNumbers f' := h ▸ .same f

theorem Fault.MayLoseNumbers.reports {f f' : Fault} (h : f.MayLoseNumbers f') :
    f' = f ∨ f.reports = true ∧ f'.reports = true := by
  cases h with
  | same => exact .inl rfl
  | run => exact .inr ⟨rfl,rfl⟩

/-- Two runs in two worlds that differ in audit trails only. -/
structure Trip.Alike (t t' : Trip) : Prop where
  world : t.world.Alike t'.world
  run : t.run.Alike t'.run

namespace Run

theorem Alike.log {run run' : Run} (h : run.Alike run') :
    MayBeGone Eq (run.recorder.bind Recorder.log) (run'.recorder.bind Recorder.log) := by
  obtain ⟨recorder,h⟩ := h
  generalize run.recorder = before at h
  cases h with
  | none => exact .gone none
  | some h =>
    obtain ⟨_,_,hl,-⟩ := h
    exact hl

theorem Alike.extractionLog {run run' : Run} (h : run.Alike run') :
    MayBeGone Eq (run.recorder.bind Recorder.extractionLog)
      (run'.recorder.bind Recorder.extractionLog) := by
  obtain ⟨recorder,h⟩ := h
  generalize run.recorder = before at h
  cases h with
  | none => exact .gone none
  | some h =>
    obtain ⟨_,_,-,hx⟩ := h
    exact hx

theorem reports_alike : Reports Run.Alike Fault.MayLoseNumbers where
  same := .same
  run h message node label cause := .run message node label cause h.log h.extractionLog

end Run

theorem Trip.level_iff {t t' : Trip} : Trip.Level World.Alike Run.Alike t t' ↔ t.Alike t' :=
  ⟨fun h => ⟨h.world,h.run⟩,fun h => ⟨h.world,h.run⟩⟩

theorem Visit.step_matches (n : Step Item) :
    Attempt.Matches Trip.lost Trip.Alike Fault.MayLoseNumbers Eq (step n) (step n) :=
  (step_level Run.inStep_alike n Run.reports_alike).of_iff fun _ _ => Trip.level_iff

end StepGraph

/-!
Walks of two runs, abreast. Visits that go together from states that go together make walks that
take the same routes, stop by stop.
-/
namespace StepGraph

open Attempt

variable {σ κ : Type} {μ : σ → Nat} {S : σ → σ → Prop} {E : Fault → Fault → Prop}

/-- Visits of one node behind one route, in states that go together before and after. -/
structure Stop.Alike (S : σ → σ → Prop) (E : Fault → Fault → Prop) (st st' : Stop σ κ) : Prop where
  target : st'.target = st.target
  node : st'.node = st.node
  before : S st.before st'.before
  after : S st.after st'.after
  exit : Agree E Eq st.exit st'.exit

theorem Stop.Alike.onward {st st' : Stop σ κ} (h : st.Alike S E st') (g : Graph κ) :
    st'.onward g = st.onward g := by
  have he := h.exit
  unfold Stop.onward
  rw [h.node]
  generalize st.exit = exit at he
  generalize st'.exit = exit' at he
  cases he with
  | ok h => rw [h]
  | error h => rfl

theorem Stop.Alike.ids {stops stops' : List (Stop σ κ)}
    (h : List.Forall₂ (Stop.Alike S E) stops stops') :
    stops'.map (·.node.id) = stops.map (·.node.id) := by
  induction h with
  | nil => rfl
  | cons h _ ih => rw [List.map_cons,List.map_cons,ih,h.node]

namespace Graph

/-- Two walks with what they leave, from states that go together: they go along trails of stops
that are alike, and end alike. -/
def Abreast (S : σ → σ → Prop) (E : Fault → Fault → Prop) (g : Graph κ)
    (visit : Step κ → Attempt σ String) (s s' : σ) (target : Option String)
    (w w' : Walked × σ) : Prop :=
  ∃ stops stops' next, g.Trail visit s target stops w.2 next ∧
    g.Trail visit s' target stops' w'.2 next ∧ List.Forall₂ (Stop.Alike S E) stops stops' ∧
    w.1.visited = stops.map (·.node.id) ∧ w'.1.visited = stops'.map (·.node.id) ∧
    S w.2 w'.2 ∧ Agree E Eq w.1.outcome w'.1.outcome

variable {g : Graph κ} {visit : Step κ → Attempt σ String}

theorem Abreast.here {s s' : σ} (hs : S s s') {target : Option String} {r r' : Except Fault Unit}
    (hr : Agree E Eq r r') : g.Abreast S E visit s s' target (⟨[],r⟩,s) (⟨[],r'⟩,s') :=
  ⟨[],[],target,.nil s target,.nil s' target,.nil,rfl,rfl,hs,hr⟩

theorem Abreast.front {st st' : Stop σ κ} (hst : st.IsOf g visit) (hst' : st'.IsOf g visit)
    (ha : st.Alike S E st') {w w' : Walked × σ}
    (h : g.Abreast S E visit st.after st'.after (st.onward g) w w') :
    g.Abreast S E visit st.before st'.before (some st.target)
      (w.1.after st.node.id,w.2) (w'.1.after st.node.id,w'.2) := by
  obtain ⟨stops,stops',next,ht,ht',hf,hv,hv',hw,ho⟩ := h
  have ht' : g.Trail visit st'.before (some st'.target) (st' :: stops') w'.2 next :=
    .cons hst' (by rw [ha.onward g]; exact ht')
  rw [ha.target] at ht'
  refine ⟨st :: stops,st' :: stops',next,.cons hst ht,ht',.cons ha hf,?_,?_,hw,ho⟩
  · exact congrArg (_ :: ·) hv
  · exact ha.node ▸ congrArg (_ :: ·) hv'

/-- Visits that go together make walks that go abreast, where the count of the first one stays. -/
theorem walkFrom_abreast (hv : ∀ n, Matches μ S E Eq (visit n) (visit n)) (hE : ∀ f, E f f)
    (limit : Int) (left : Nat) (target : Option String) (s s' : σ) :
    μ s ≤ μ ((walkFrom g.nodes (EdgeMap.ofEdges g.edges) visit limit left target).run s).2 ∧
    (S s s' →
      μ ((walkFrom g.nodes (EdgeMap.ofEdges g.edges) visit limit left target).run s).2 = μ s →
      g.Abreast S E visit s s' target
        ((walkFrom g.nodes (EdgeMap.ofEdges g.edges) visit limit left target).run s)
        ((walkFrom g.nodes (EdgeMap.ofEdges g.edges) visit limit left target).run s')) := by
  have arrived (s s' : σ) (target : Option String) : μ s ≤ μ s ∧ (S s s' → μ s = μ s →
      g.Abreast S E visit s s' target (Walked.arrived,s) (Walked.arrived,s')) :=
    ⟨Nat.le_refl _,fun hs _ => .here hs (.ok rfl)⟩
  -- by the visits that are left; where the count stays over the walk, it stays over each visit
  induction left generalizing target s s' with
  | zero =>
    cases target with
    | none => exact arrived s s' none
    | some id => exact ⟨Nat.le_refl _,fun hs _ => .here hs (.error (hE _))⟩
  | succ left ih =>
    cases target with
    | none => exact arrived s s' none
    | some id =>
      unfold walkFrom
      cases hn : Entries.get? g.nodes id with
      | none => exact arrived s s' (some id)
      | some node =>
        cases node with
        | start m =>
          let st (s : σ) : Stop σ κ := ⟨id,.start m,s,s,.ok defaultHandle⟩
          have hst (s : σ) : (st s).IsOf g visit := ⟨hn,rfl,rfl⟩
          obtain ⟨hle,h⟩ := ih ((st s).onward g) s s'
          refine ⟨hle,fun hs hl => ?_⟩
          exact .front (hst s) (hst s') ⟨rfl,rfl,hs,hs,.ok rfl⟩ (h hs hl)
        | step n =>
          have hle := (hv n).le s
          have ha := (hv n).alike s s'
          unfold MatchesAt at ha
          rcases hx : (visit n).exec s with ⟨exit,t⟩
          rcases hx' : (visit n).exec s' with ⟨exit',t'⟩
          rw [hx] at hle ha
          rw [hx'] at ha
          have hst : (⟨id,.step n,s,t,exit⟩ : Stop σ κ).IsOf g visit := ⟨hn,hx⟩
          have hst' : (⟨id,.step n,s',t',exit'⟩ : Stop σ κ).IsOf g visit := ⟨hn,hx'⟩
          change (visit n).run.run s = (exit,t) at hx
          change (visit n).run.run s' = (exit',t') at hx'
          simp only [StateT.run_bind,hx,hx']
          cases exit with
          | ok handle =>
            obtain ⟨hle',h⟩ := ih ((EdgeMap.ofEdges g.edges).next? n.id handle) t t'
            refine ⟨Nat.le_trans hle hle',fun hs hl => ?_⟩
            have hlt := Nat.le_antisymm (Nat.le_trans hle' (Nat.le_of_eq hl)) hle
            obtain ⟨ht,he⟩ := ha hs hlt
            obtain ⟨_,rfl,rfl⟩ := he.of_ok
            exact .front hst hst' ⟨rfl,rfl,hs,ht,he⟩ (h ht (hl.trans hlt.symm))
          | error f =>
            refine ⟨hle,fun hs hl => ?_⟩
            obtain ⟨ht,he⟩ := ha hs hl
            obtain ⟨f',rfl,hf⟩ := he.of_error
            exact .front hst hst' ⟨rfl,rfl,hs,ht,he⟩ (.here ht (.error hf))

/-- The route that leads out of a graph's start marker, if there is one. -/
def outset? (g : Graph κ) : Option String := g.start.toOption.bind g.outset

theorem walk_abreast (hv : ∀ n, Matches μ S E Eq (visit n) (visit n)) (hE : ∀ f, E f f) (g : Graph κ)
    (N : Nat) (s s' : σ) :
    μ s ≤ μ ((g.walk visit N).run s).2 ∧ (S s s' → μ ((g.walk visit N).run s).2 = μ s →
      g.Abreast S E visit s s' g.outset? ((g.walk visit N).run s) ((g.walk visit N).run s')) := by
  unfold outset?
  cases hm : g.start with
  | error f =>
    rw [walk_stopped hm visit N]
    exact ⟨Nat.le_refl _,fun hs _ => .here hs (.error (hE f))⟩
  | ok m =>
    have hw : g.walk visit N =
        walkFrom g.nodes (EdgeMap.ofEdges g.edges) visit N N (g.outset m) := by
      unfold walk
      rw [hm]
      rfl
    rw [hw]
    exact walkFrom_abreast hv hE N N (g.outset m) s s'

end Graph

end StepGraph
