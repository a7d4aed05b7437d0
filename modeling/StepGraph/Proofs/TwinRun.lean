import StepGraph.Proofs.OwnRun
import StepGraph.Proofs.RunTogether
import StepGraph.Proofs.Twin

/-!
How one run opens, goes on and closes in two worlds that differ in the records of other runs. It opens
its records under numbers of its own in both worlds, and from there it keeps in step with itself.
-/
namespace StepGraph

open Attempt Work

abbrev Renumbered : Option Int → Option Int → Prop := Option.Rel fun _ _ => True

/-- Faults that differ at most in the numbers of records. -/
inductive Fault.Renumbered : Fault → Fault → Prop
  | same (f : Fault) : Renumbered f f
  | run (message : String) {executionLog executionLog' extractionLog extractionLog' : Option Int}
      (node label : Option String) (cause : Option Fault)
      (hl : StepGraph.Renumbered executionLog executionLog')
      (hx : StepGraph.Renumbered extractionLog extractionLog') :
      Renumbered (.run message executionLog extractionLog node label cause)
        (.run message executionLog' extractionLog' node label cause)

theorem Fault.Renumbered.reports {f f' : Fault} (h : f.Renumbered f') :
    f' = f ∨ f.reports = true ∧ f'.reports = true := by
  cases h with
  | same => exact .inl rfl
  | run => exact .inr ⟨rfl,rfl⟩

/-- Reports that differ at most in the numbers of records. -/
inductive Report.Renumbered (r : Report) : Report → Prop
  | intro (executionLog extractionLog : Option Int)
      (hl : StepGraph.Renumbered r.executionLog executionLog)
      (hx : StepGraph.Renumbered r.extractionLog extractionLog) :
      Renumbered r { r with executionLog := executionLog, extractionLog := extractionLog }

namespace Recorder.Twin

variable {rec rec' : Recorder}

theorem log (h : rec.Twin rec') : Renumbered rec.log rec'.log := by
  obtain ⟨log,x,hl,-⟩ := h
  exact rel_imp (fun _ _ _ => trivial) hl

theorem extractionLog (h : rec.Twin rec') : Renumbered rec.extractionLog rec'.extractionLog := by
  obtain ⟨log,x,-,hx⟩ := h
  exact rel_imp (fun _ _ _ => trivial) hx

theorem level (h : rec.Twin rec') :
    rec.Level (fun _ => 0) (World.Twin rec.record? rec'.record?) rec' :=
  ⟨Recorder.add_twin h,fun c _ => Recorder.change_twin h c⟩

end Recorder.Twin

structure Run.Twin (rec rec' : Recorder) (run run' : Run) : Prop where
  recorder : run.recorder = some rec
  run : run' = { run with recorder := some rec' }

namespace Run

variable {rec rec' : Recorder}

theorem inStep_twin (hr : rec.Twin rec') :
    InStep (fun _ => 0) (World.Twin rec.record? rec'.record?) (Run.Twin rec rec') where
  plain h := Work.twin_plain h
  forLog h := Work.twin_forLog h
  runs := by
    rintro run _ ⟨hrec,rfl⟩
    exact ⟨some rec',rfl,hrec ▸ .some hr.level⟩
  respond := by
    rintro run _ x ⟨hrec,rfl⟩
    exact ⟨hrec,rfl⟩
  counts := .inl fun _ => rfl

theorem reports_twin (hr : rec.Twin rec') : Reports (Run.Twin rec rec') Fault.Renumbered where
  same := .same
  run := by
    rintro run _ ⟨hrec,rfl⟩ message node label cause
    rw [hrec]
    exact .run message node label cause hr.log hr.extractionLog

end Run

/-- Some more runs can open their records: the numbers of records count up from one and fit, and
steps are recorded for earlier runs only. -/
structure Database.Admits (n : Nat) (db : Database) : Prop where
  runs : 0 < db.executionLogs.nextId ∧ db.executionLogs.nextId + n ≤ twoTo 63
  documents : 0 < db.extractionLogs.nextId ∧ db.extractionLogs.nextId + n ≤ twoTo 63
  steps : db.Ordered

theorem fitsRecord_of_next {i : Int} {n : Nat} (h : 0 < i ∧ i + (n + 1 : Nat) ≤ twoTo 63) :
    fitsRecord i = true := by
  have htwo : (0 : Int) ≤ twoTo 63 := by decide
  simp only [fitsRecord,Bool.and_eq_true,decide_eq_true_eq]
  omega

/-- One more run can open its record: its number is new and fits, and no step is recorded under it. -/
structure Database.CanOpen (db : Database) : Prop where
  pos : 0 < db.executionLogs.nextId
  fits : fitsRecord db.executionLogs.nextId = true
  steps : db.Ordered

theorem Database.Admits.opens {db : Database} {n : Nat} (h : db.Admits (n + 1)) : db.CanOpen :=
  ⟨h.runs.1,fitsRecord_of_next h.runs,h.steps⟩

theorem Database.CanOpen.stepsOf {db : Database} (h : db.CanOpen) :
    db.stepLogs.stepsOf db.executionLogs.nextId = [] :=
  List.filter_eq_nil_iff.2 fun row hrow => by simpa using Int.ne_of_lt (h.steps row hrow)

theorem Database.CanOpen.keepsTo {db db' : Database} {n : Nat} (h : db.CanOpen)
    (hk : db.KeepsTo none 0 n db') : db'.CanOpen := by
  have hnext : db'.executionLogs.nextId = db.executionLogs.nextId := by
    have := hk.newRuns
    omega
  obtain ⟨added,ha,hown⟩ := hk.steps
  refine ⟨hnext ▸ h.pos,hnext ▸ h.fits,fun row hrow => hnext ▸ ?_⟩
  rw [ha] at hrow
  exact (List.mem_append.1 hrow).elim (h.steps row) fun hrow => nomatch hown row hrow

theorem Recorder.newRecord_twin {rec rec' : Recorder} (hr : rec.Twin rec') (context : Value)
    {w w' : World} (hw : w.Twin none none w') (ho : w.db.CanOpen) (ho' : w'.db.CanOpen) :
    WriteAlike (fun i j v v' => i = w.db.executionLogs.nextId ∧ j = w'.db.executionLogs.nextId ∧
      v.Twin (some i) (some j) v') w w' (rec.newRecord context) (rec'.newRecord context) := by
  obtain ⟨log,x,-,hx⟩ := hr
  obtain ⟨l,rfl,hl⟩ := hw
  let G (db db' : Database) : Prop := db = w.db ∧ db' = (w.withLogs l).db
  refine .look (G := G) (u := database) (v := database) rfl rfl (.ok ⟨rfl,rfl⟩) ?_
  rintro db db' - - ⟨rfl,rfl⟩
  refine .look rfl rfl (Table.all_lookedAtAlike hl.executionLogs) fun _ _ _ _ _ => ?_
  have hheld : heldAll [rec.workflow,rec.extractionLog,rec.extractionType,rec.transformationType] =
      heldAll [rec.workflow,x,rec.extractionType,rec.transformationType] :=
    heldAll_fit (.cons (.inl rfl) (.cons (.inr hx) (.cons (.inl rfl) (.cons (.inl rfl) .nil))))
  refine .same rfl (congrArg (fun x => (x,_)) hheld.symm) fun _ => .same rfl rfl fun kept => ?_
  refine .same (u := moment) (v := moment) rfl rfl fun now => ?_
  refine .set ⟨rfl,rfl,{ l with executionLogs := _ },rfl,{ hl with rows := .some ?_ }⟩
  refine .fresh rfl rfl ?_ ho.stepsOf ho'.stepsOf
  unfold ExecutionLog.content
  generalize rec.extractionLog = before at hx
  cases hx <;> rfl

namespace Launch

theorem newDocument_twin (mode : Mode) (r : Request) (text : Option String) {w w' : World} {n n' : Nat}
    (hw : w.Twin none none w') (ha : w.db.Admits (n + 1)) (ha' : w'.db.Admits (n' + 1)) :
    WriteAlike (fun i j v v' => Fit i j ∧ v.Twin none none v') w w' (newDocument mode r text)
      (newDocument mode r text) := by
  obtain ⟨l,rfl,hl⟩ := hw
  let G (db db' : Database) : Prop := db = w.db ∧ db' = (w.withLogs l).db
  refine .look (G := G) (u := database) (v := database) rfl rfl (.ok ⟨rfl,rfl⟩) ?_
  rintro db db' - - ⟨rfl,rfl⟩
  refine .look rfl rfl (Table.all_lookedAtAlike hl.extractionLogs) fun _ _ _ _ _ => ?_
  refine .same rfl rfl fun _ => .set ⟨?_,{ l with extractionLogs := _ },rfl,{ hl with }⟩
  exact ⟨fitsRecord_of_next ha.documents,fitsRecord_of_next ha'.documents⟩

inductive Openings : Except Fault (Option DocumentKind × Recorder) × World →
    Except Fault (Option DocumentKind × Recorder) × World → Prop
  | opened (kind : Option DocumentKind) {rec rec' : Recorder} {v v' : World} (hr : rec.Twin rec')
      (hv : v.Twin rec.record? rec'.record? v') : Openings (.ok (kind,rec),v) (.ok (kind,rec'),v')
  | fault (f : Fault) {v v' : World} (hv : v.Twin none none v') : Openings (.error f,v) (.error f,v')

theorem start_twin (kind : Option DocumentKind) {rec rec' : Recorder} (hlog : rec.log = none)
    (hr : rec.Twin rec') (context : Value) {w w' : World} (hw : w.Twin none none w')
    (ho : w.db.CanOpen) (ho' : w'.db.CanOpen) :
    Openings ((rec.start context >>= fun rec => pure (kind,rec) : Work _).exec w)
      ((rec'.start context >>= fun rec => pure (kind,rec) : Work _).exec w') := by
  have written := logWrite_twin (p := rec.newRecord context) (q := rec'.newRecord context) hw
    fun hpop => Recorder.newRecord_twin hr context hpop ho ho'
  obtain ⟨log,x,hl,hx⟩ := hr
  rw [hlog] at hl
  cases hl
  unfold Recorder.start
  rw [exec_bind,exec_bind,exec_bind,exec_bind]
  generalize (logWrite (rec.newRecord context)).exec w = done at written ⊢
  generalize (logWrite (Recorder.newRecord _ context)).exec w' = done' at written ⊢
  cases written with
  | kept h =>
    obtain ⟨rfl,rfl,h⟩ := h
    have hne : w.popped.db.executionLogs.nextId ≠ 0 := Int.ne_of_gt ho.pos
    have hne' : w'.popped.db.executionLogs.nextId ≠ 0 := Int.ne_of_gt ho'.pos
    refine .opened kind (.intro (some _) x (.some ⟨⟨ho.fits,ho'.fits⟩,hne,hne'⟩) hx) ?_
    let rec₁ : Recorder :=
      { rec with extractionLog := x, log := some w'.popped.db.executionLogs.nextId }
    have hid' : rec₁.record? = some _ := Recorder.record?_of_log rfl hne'
    change World.Twin _ rec₁.record? _ _
    rw [Recorder.record?_of_log rfl hne,hid']
    exact h
  | gone h => exact .opened kind (.intro none x .none hx) h
  | fault f h => exact .fault f h

theorem opening_twin (mode : Mode) (workflow : Int) (r : Request) {w w' : World} {n n' : Nat}
    (hw : w.Twin none none w') (ha : w.db.Admits (n + 1)) (ha' : w'.db.Admits (n' + 1)) :
    Openings ((opening mode workflow r).exec w) ((opening mode workflow r).exec w') := by
  have asked := (twin_plain (findKind_appendOnly r).unlogged.bestEffort).alike w w' hw rfl
  have hstay : ∀ v : World, ∃ found, (bestEffort (findKind r)).exec v = (found,v) := fun v => by
    rcases findKind_cases r v with ⟨-,kind,hk⟩ | ⟨-,hk⟩ <;> exact ⟨_,hk⟩
  obtain ⟨found,hk⟩ := hstay w
  obtain ⟨found',hk'⟩ := hstay w'
  rw [hk,hk'] at asked
  have hfound : found' = found := asked.2.eq
  unfold opening
  rw [exec_bind,exec_bind,hk,hk',hfound]
  cases found with
  | error f => exact .fault f hw
  | ok kind =>
    simp only
    rw [exec_bind,exec_bind]
    have hkeep := openDocument_keepsTo mode r none w
    have hkeep' := openDocument_keepsTo mode r none w'
    unfold openDocument at hkeep hkeep' ⊢
    generalize keptText r.extracted = kept at hkeep hkeep' ⊢
    cases kept with
    | error f => exact .fault f hw
    | ok text =>
      rw [exec_bind_of] at hkeep hkeep' ⊢
      -- the record of the document meets the same outages in both worlds
      have written := logWrite_twin (p := newDocument mode r text) (q := newDocument mode r text) hw
        fun hpop => newDocument_twin mode r text hpop ha ha'
      rw [exec_bind_of]
      generalize (logWrite (newDocument mode r text)).exec w = done at hkeep written ⊢
      generalize (logWrite (newDocument mode r text)).exec w' = done' at hkeep' written ⊢
      cases written with
      | kept h =>
        exact start_twin _ rfl (.intro none (some _) .none (.some h.1)) _ h.2
          (ha.opens.keepsTo hkeep) (ha'.opens.keepsTo hkeep')
      | gone h =>
        exact start_twin _ rfl (.intro none none .none .none) _ h (ha.opens.keepsTo hkeep)
          (ha'.opens.keepsTo hkeep')
      | fault f h => exact .fault f h

/-- What walks of one run come to in two worlds: the same visits, with ends that go together. -/
structure Journeyed (R : Run → Run → Prop) (p p' : Walked × Run) : Prop where
  visited : p'.1.visited = p.1.visited
  outcome : Agree Fault.Renumbered Eq p.1.outcome p'.1.outcome
  run : R p.2 p'.2

variable {rec rec' : Recorder}

theorem failed_twin (hr : rec.Twin rec') (context : Option Item) {f f' : Fault}
    (hf : f.Renumbered f') :
    Matches (fun _ => 0) (World.Twin rec.record? rec'.record?) Fault.Renumbered Report.Renumbered
      (fail rec context f >>= throw) (fail rec' context f' >>= throw) :=
  failed_level (Run.inStep_twin hr) .same hr.level
    (fun message cause => .run message none none cause hr.log hr.extractionLog) context hf hf.reports

theorem conclude_twin (hr : rec.Twin rec') (context : Item) {p p' : Walked × Run}
    (h : Journeyed (Run.Twin rec rec') p p') :
    Matches (fun _ => 0) (World.Twin rec.record? rec'.record?) Fault.Renumbered Report.Renumbered
      (conclude rec context p) (conclude rec' context p') := by
  obtain ⟨⟨visited,outcome⟩,run⟩ := p
  obtain ⟨⟨visited',outcome'⟩,run'⟩ := p'
  obtain ⟨-,ho,hrun⟩ := h
  cases ho with
  | ok =>
    refine finish_level (Run.inStep_twin hr) Fault.Renumbered.same hr.level (fun _ _ _ => ?_) hrun
    exact .intro _ _ hr.log hr.extractionLog
  | error hf => exact failed_twin hr (some context) hf

end Launch

end StepGraph
