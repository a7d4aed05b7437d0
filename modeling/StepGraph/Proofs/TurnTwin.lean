import StepGraph.Proofs.Turns
import StepGraph.Proofs.TwinRun

/-!
Turns of one run in two worlds that differ in the records of other runs. Each turn does the same in
both, and without imaging steps it leaves the records of the other runs as they are.
-/
namespace StepGraph

open Attempt Work

def Graph.Imageless (g : Graph Item) : Prop :=
  ∀ id n, Entries.get? g.nodes id = some (.step n) → n.kind? ≠ some .imaging

def Graph.sparesImaging (g : Graph Item) : Bool :=
  g.nodes.all fun e =>
    match e.2 with
    | .start _ => true
    | .step n => n.kind? != some .imaging

theorem Graph.imageless_of_spares {g : Graph Item} (h : g.sparesImaging = true) : g.Imageless := by
  intro id n hn
  have hall := List.all_eq_true.1 h _ (Entries.mem_of_get? hn)
  simpa using hall

namespace Launch

/-- A run that sets out in a world walks a graph without imaging steps. -/
def Imageless (mode : Mode) (r : Request) (w : World) : Prop :=
  ∀ workflow d v, r.workflow = some workflow →
    (departure mode workflow r).exec w = (.ok d,v) → d.1.Imageless

namespace Leg

structure Twin (rec rec' : Recorder) (l l' : Leg) : Prop where
  run : Run.Twin rec rec' l.run l'.run
  graph : l'.graph = l.graph
  visited : l'.visited = l.visited
  left : l'.left = l.left
  next : l'.next = l.next

variable {rec rec' : Recorder}

inductive VisitedAlike (rec rec' : Recorder) :
    (Leg ⊕ Walked × Run) × World → (Leg ⊕ Walked × Run) × World → Prop
  | onward {l l' : Leg} {w w' : World} (hl : l.Twin rec rec' l')
      (hw : w.Twin rec.record? rec'.record? w') : VisitedAlike rec rec' (.inl l,w) (.inl l',w')
  | ended {p p' : Walked × Run} {w w' : World} (hp : Journeyed (Run.Twin rec rec') p p')
      (hw : w.Twin rec.record? rec'.record? w') : VisitedAlike rec rec' (.inr p,w) (.inr p',w')

theorem visit_twin (hr : rec.Twin rec') {l l' : Leg} (hl : l.Twin rec rec' l') {w w' : World}
    (hw : w.Twin rec.record? rec'.record? w') : VisitedAlike rec rec' (l.visit w) (l'.visit w') := by
  -- the walks go on alike behind a node, and they end alike
  have onward (id handle : String) {r r' : Run} (hrun : Run.Twin rec rec' r r') :
      (l.onward id handle r).Twin rec rec' (l'.onward id handle r') := by
    obtain ⟨-,hg,hv,hleft,-⟩ := hl
    simp only [Leg.onward,hg,hv,hleft]
    exact ⟨hrun,rfl,rfl,rfl,rfl⟩
  have ended (walked : Walked) {o : Except Fault Unit} (h : Agree Fault.Renumbered Eq walked.outcome o)
      {r r' : Run} (hrun : Run.Twin rec rec' r r') :
      Journeyed (Run.Twin rec rec') (l.ended walked,r) (l'.ended { walked with outcome := o },r') :=
    ⟨congrArg (· ++ walked.visited) hl.visited,h,hrun⟩
  unfold visit
  rw [hl.next,hl.left,hl.graph]
  cases l.next with
  | none => exact .ended (ended .arrived (.ok rfl) hl.run) hw
  | some id =>
    cases l.left with
    | zero => exact .ended (ended (.stopped _) (.error (.same _)) hl.run) hw
    | succ left =>
      simp only
      cases Entries.get? l.graph.nodes id with
      | none => exact .ended (ended .arrived (.ok rfl) hl.run) hw
      | some n =>
        cases n with
        | start n => exact .onward (onward n.id defaultHandle hl.run) hw
        | step n =>
          obtain ⟨ht,hdone⟩ := (Visit.step_level (Run.inStep_twin hr) n (Run.reports_twin hr)).alike
            ⟨w,l.run⟩ ⟨w',l'.run⟩ ⟨hw,hl.run⟩ rfl
          simp only
          generalize (Visit.step n).exec ⟨w,l.run⟩ = done at ht hdone ⊢
          generalize (Visit.step n).exec ⟨w',l'.run⟩ = done' at ht hdone ⊢
          obtain ⟨x,t⟩ := done
          obtain ⟨x',t'⟩ := done'
          cases hdone with
          | ok h =>
            cases h
            exact .onward (onward n.id _ ht.run) ht.world
          | error h => exact .ended (ended (.after n.id (.stopped _)) (.error h) ht.run) ht.world

theorem visit_keepsTo {rec : Recorder} {l : Leg} (hrun : l.run.recorder = some rec)
    (hg : l.graph.Imageless) (w : World) :
    w.KeepsTo rec.record? (l.visit w).2 ∧
      ∀ l', (l.visit w).1 = .inl l' → l'.run.recorder = some rec ∧ l'.graph = l.graph := by
  have still : w.KeepsTo rec.record? w := refl_of (World.KeepsTo rec.record?) w
  unfold visit
  cases l.next with
  | none => exact ⟨still,fun _ h => by cases h⟩
  | some id =>
    cases l.left with
    | zero => exact ⟨still,fun _ h => by cases h⟩
    | succ left =>
      simp only
      cases hn : Entries.get? l.graph.nodes id with
      | none => exact ⟨still,fun _ h => by cases h⟩
      | some n =>
        cases n with
        | start n =>
          refine ⟨still,fun _ h => ?_⟩
          cases h
          exact ⟨hrun,rfl⟩
        | step n =>
          obtain ⟨hrec,hkeep⟩ := Visit.step_keepsTo (hg id n hn) ⟨w,l.run⟩ hrun
          simp only
          generalize (Visit.step n).exec ⟨w,l.run⟩ = done at hrec hkeep ⊢
          obtain ⟨f | handle,t⟩ := done
          · exact ⟨hkeep,fun _ h => by cases h⟩
          · refine ⟨hkeep,fun _ h => ?_⟩
            cases h
            exact ⟨hrec.trans hrun,rfl⟩

end Leg

namespace Stage

def recorder? : Stage → Option Recorder
  | .waiting => none
  | .opened _ _ rec | .unprepared rec _ | .walking rec _ _ | .walked rec _ _ => some rec
  | .closed rec _ _ => rec

def record? (s : Stage) : Option Int := s.recorder?.bind Recorder.record?

def waits : Stage → Bool
  | .waiting => true
  | _ => false

def SameEnd (run run' : Run) : Prop := ∃ recorder, run' = { run with recorder := recorder }

inductive Twin : Stage → Stage → Prop
  | waiting : Twin .waiting .waiting
  | opened (workflow : Int) (kind : Option DocumentKind) {rec rec' : Recorder} (hr : rec.Twin rec') :
      Twin (.opened workflow kind rec) (.opened workflow kind rec')
  | unprepared {rec rec' : Recorder} (hr : rec.Twin rec') (f : Fault) :
      Twin (.unprepared rec f) (.unprepared rec' f)
  | walking {rec rec' : Recorder} (hr : rec.Twin rec') (context : Item) {l l' : Leg}
      (hl : l.Twin rec rec' l') : Twin (.walking rec context l) (.walking rec' context l')
  | walked {rec rec' : Recorder} (hr : rec.Twin rec') (context : Item) {p p' : Walked × Run}
      (hp : Journeyed (Run.Twin rec rec') p p') :
      Twin (.walked rec context p) (.walked rec' context p')
  | closed {rec rec' : Option Recorder} (hr : Option.Rel Recorder.Twin rec rec')
      {p p' : Option (Walked × Run)} (hp : Option.Rel (Journeyed SameEnd) p p')
      {done done' : Except Fault Report}
      (hd : Agree Fault.Renumbered Report.Renumbered done done') :
      Twin (.closed rec p done) (.closed rec' p' done')

theorem Twin.waits {s s' : Stage} (h : s.Twin s') : s'.waits = s.waits := by cases h <;> rfl

theorem Twin.turns {s s' : Stage} (h : s.Twin s') : s'.turns = s.turns := by
  cases h with
  | walking hr context hl => exact congrArg (· + 2) hl.left
  | _ => rfl

variable (mode : Mode) (r : Request)

theorem outset_twin {rec rec' : Recorder} (hr : rec.Twin rec') (context : Item) (g : Graph Item)
    {run run' : Run} (h : Run.Twin rec rec' run run') :
    Twin ((Leg.outset g run).elim (walking rec context) (walked rec context))
      ((Leg.outset g run').elim (walking rec' context) (walked rec' context)) := by
  unfold Leg.outset
  cases g.start with
  | error f => exact .walked hr context ⟨rfl,.error (.same f),h⟩
  | ok m => exact .walking hr context ⟨h,rfl,rfl,rfl,rfl⟩

theorem elim_record? (rec : Recorder) (context : Item) (x : Leg ⊕ Walked × Run) :
    Stage.recorder? (x.elim (walking rec context) (walked rec context)) = some rec := by
  cases x <;> rfl

structure InTurn (s s' : Stage × World) : Prop where
  stage : s.1.Twin s'.1
  world : s.2.Twin s.1.record? s'.1.record? s'.2

theorem waiting_twin {w w' : World} {n n' : Nat} (hw : w.Twin none none w') (ha : w.db.Admits (n + 1))
    (ha' : w'.db.Admits (n' + 1)) :
    InTurn (Stage.waiting.turn mode r w) (Stage.waiting.turn mode r w') := by
  rw [turn,turn]
  cases r.workflow with
  | none => exact ⟨.closed .none .none (.error (.same _)),hw⟩
  | some workflow =>
    have opened := opening_twin mode workflow r hw ha ha'
    simp only
    generalize (opening mode workflow r).exec w = done at opened ⊢
    generalize (opening mode workflow r).exec w' = done' at opened ⊢
    cases opened with
    | opened kind hr hv => exact ⟨.opened workflow kind hr,hv⟩
    | fault f hv => exact ⟨.closed .none .none (.error (.same f)),hv⟩

theorem opened_twin (workflow : Int) (kind : Option DocumentKind) {rec rec' : Recorder}
    (hr : rec.Twin rec') {w w' : World} (hw : w.Twin rec.record? rec'.record? w') :
    InTurn ((Stage.opened workflow kind rec).turn mode r w)
      ((Stage.opened workflow kind rec').turn mode r w') := by
  obtain ⟨hv,hd⟩ := (twin_plain (prepare_unreported mode workflow r kind
    (formatOf mode r kind)).unlogged).alike w w' hw rfl
  rw [turn,turn]
  generalize (prepare mode workflow r kind (formatOf mode r kind)).exec w = done at hv hd ⊢
  generalize (prepare mode workflow r kind (formatOf mode r kind)).exec w' = done' at hv hd ⊢
  obtain ⟨x,v⟩ := done
  obtain ⟨x',v'⟩ := done'
  cases hd with
  | @ok start _ h =>
    cases h
    have hrun : Run.Twin rec rec' (outset rec workflow (formatOf mode r kind) start)
      (outset rec' workflow (formatOf mode r kind) start) := ⟨rfl,rfl⟩
    refine ⟨outset_twin hr start.context start.graph hrun,?_⟩
    unfold record?
    rw [elim_record?,elim_record?]
    exact hv
  | error h =>
    cases h
    exact ⟨.unprepared hr _,hv⟩

theorem turn_twin {s s' : Stage} {w w' : World} (h : InTurn (s,w) (s',w'))
    (hopen : s.waits = true → ∃ n n', w.db.Admits (n + 1) ∧ w'.db.Admits (n' + 1)) :
    InTurn (s.turn mode r w) (s'.turn mode r w') := by
  obtain ⟨hs,hw⟩ := h
  cases hs with
  | waiting =>
    obtain ⟨n,n',ha,ha'⟩ := hopen rfl
    exact waiting_twin mode r hw ha ha'
  | opened workflow kind hr => exact opened_twin mode r workflow kind hr hw
  | unprepared hr f =>
    obtain ⟨hv,hd⟩ := (failed_twin hr none (.same f)).alike w w' hw rfl
    exact ⟨.closed (.some hr) .none hd,hv⟩
  | @walking rec rec' hr context l l' hl =>
    have visits := Leg.visit_twin hr hl hw
    rw [turn,turn]
    generalize l.visit w = a at visits ⊢
    generalize l'.visit w' = b at visits ⊢
    cases visits with
    | onward hl hw => exact ⟨.walking hr context hl,hw⟩
    | ended hp hw => exact ⟨.walked hr context hp,hw⟩
  | @walked rec rec' hr context p p' hp =>
    obtain ⟨hv,hd⟩ := (conclude_twin hr context hp).alike w w' hw rfl
    exact ⟨.closed (.some hr) (.some ⟨hp.visited,hp.outcome,_,hp.run.run⟩) hd,hv⟩
  | closed hr hp hd => exact ⟨.closed hr hp hd,hw⟩

def ImagelessWalk : Stage → Prop
  | .walking rec _ l => l.run.recorder = some rec ∧ l.graph.Imageless
  | _ => True

theorem turn_keepsTo {s : Stage} (hs : s.ImagelessWalk) (hwaits : s.waits = false) (w : World) :
    w.KeepsTo s.record? (s.turn mode r w).2 ∧ (s.turn mode r w).1.recorder? = s.recorder? := by
  cases s with
  | waiting => cases hwaits
  | opened workflow kind rec =>
    have hkeep := prepare_keepsTo mode workflow r kind (formatOf mode r kind) rec.record? w
    rw [turn]
    generalize (prepare mode workflow r kind (formatOf mode r kind)).exec w = done at hkeep ⊢
    obtain ⟨f | start,v⟩ := done
    · exact ⟨hkeep,rfl⟩
    · exact ⟨hkeep,elim_record? _ _ _⟩
  | unprepared rec f => exact ⟨((fail_keepsTo rec none f).bind fun f => .throw f) w,rfl⟩
  | walking rec context l => exact ⟨(Leg.visit_keepsTo hs.1 hs.2 w).1,elim_record? _ _ _⟩
  | walked rec context p => exact ⟨conclude_keepsTo rec context p w,rfl⟩
  | closed rec p done => exact ⟨refl_of (World.KeepsTo (Option.bind rec Recorder.record?)) w,rfl⟩

theorem turn_opens {w : World} (hpos : w.db.executionLogs.nextId ≠ 0) :
    w.db.KeepsOpening (Stage.waiting.turn mode r w).1.record? 1 1
      (Stage.waiting.turn mode r w).2.db := by
  rw [turn]
  cases r.workflow with
  | none => exact (Database.KeepsTo.refl none 1 1 w.db).unopened
  | some workflow =>
    have opened := opening_keepsTo mode workflow r hpos
    simp only
    generalize (opening mode workflow r).exec w = done at opened ⊢
    obtain ⟨f | ⟨kind,rec⟩,v⟩ := done <;> exact opened

theorem turn_waits (s : Stage) (w : World) : (s.turn mode r w).1.waits = false := by
  cases s with
  | waiting =>
    unfold turn
    simp only
    split
    · rfl
    · split <;> rfl
  | opened workflow kind rec =>
    rw [turn]
    split
    · rfl
    · cases Leg.outset _ _ <;> rfl
  | walking rec context l =>
    rw [turn]
    cases (l.visit w).1 <;> rfl
  | _ => rfl

def Imageless : Stage → World → Prop
  | .waiting, w => Launch.Imageless mode r w
  | .opened workflow kind _, w => ∀ start v,
      (prepare mode workflow r kind (formatOf mode r kind)).exec w = (.ok start,v) →
        start.graph.Imageless
  | s, _ => s.ImagelessWalk

variable {mode r}

theorem Imageless.plain {s : Stage} {w : World} (h : s.Imageless mode r w) : s.ImagelessWalk := by
  cases s with
  | walking => exact h
  | _ => trivial

theorem turn_imageless {s : Stage} {w : World} (h : s.Imageless mode r w) :
    (s.turn mode r w).1.Imageless mode r (s.turn mode r w).2 := by
  cases s with
  | waiting =>
    rw [turn]
    cases hr : r.workflow with
    | none => trivial
    | some workflow =>
      simp only
      rcases ho : (opening mode workflow r).exec w with ⟨f | ⟨kind,rec⟩,v⟩
      · trivial
      · intro start v' hprep
        refine h workflow (start.graph,outset rec workflow (formatOf mode r kind) start) v' hr ?_
        unfold departure
        rw [exec_bind_ok ho]
        exact exec_bind_ok hprep _
  | opened workflow kind rec =>
    rw [turn]
    rcases hprep : (prepare mode workflow r kind (formatOf mode r kind)).exec w with ⟨f | start,v⟩
    · trivial
    · have hg := h start v hprep
      simp only
      unfold Leg.outset
      cases start.graph.start with
      | error f => trivial
      | ok m => exact ⟨rfl,hg⟩
  | walking rec context l =>
    obtain ⟨hrun,hg⟩ := h
    obtain ⟨-,hgoes⟩ := Leg.visit_keepsTo hrun hg w
    rw [turn]
    rcases hv : l.visit w with ⟨l' | p,v⟩
    · obtain ⟨hrun',hg'⟩ := hgoes l' (congrArg Prod.fst hv)
      exact ⟨hrun',hg'.symm ▸ hg⟩
    · trivial
  | _ => trivial

theorem Twin.plain {s s' : Stage} (h : s.Twin s') (hs : s.ImagelessWalk) : s'.ImagelessWalk := by
  cases h with
  | walking hr context hl =>
    obtain ⟨hrun,hg,-⟩ := hl
    refine ⟨?_,hg ▸ hs.2⟩
    rw [hrun.run]
  | _ => trivial

end Stage

end Launch

end StepGraph
