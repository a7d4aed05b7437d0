import StepGraph.Proofs.Together
import StepGraph.Proofs.Prepare
import StepGraph.Proofs.VisitHeap

/-!
Visits of two runs that keep in step, and how the two runs end. Each visit does the same in both, and
what it reports differs in no more than the numbers of the runs' records.
-/
namespace StepGraph

open Attempt

structure Trip.Level (S : World → World → Prop) (R : Run → Run → Prop) (t t' : Trip) : Prop where
  world : S t.world t'.world
  run : R t.run t'.run

/-- Faults that go together: each goes with itself, and so do those that report runs that do. -/
structure Run.Reports (R : Run → Run → Prop) (E : Fault → Fault → Prop) : Prop where
  same (f : Fault) : E f f
  run {run run' : Run} (h : R run run') (message : String) (node label : Option String)
    (cause : Option Fault) :
    E (.run message (run.recorder.bind Recorder.log) (run.recorder.bind Recorder.extractionLog) node
        label cause)
      (.run message (run'.recorder.bind Recorder.log) (run'.recorder.bind Recorder.extractionLog)
        node label cause)

theorem Run.Reports.told {σ α β : Type} {μ : σ → Nat} {S : σ → σ → Prop} {R : Run → Run → Prop}
    {E : Fault → Fault → Prop} (hE : Run.Reports R E) {F : α → β → Prop} {p : Attempt σ α}
    {q : Attempt σ β} (h : Matches μ S Eq F p q) : Matches μ S E F p q :=
  h.mono (fun e _ he => he ▸ hE.same e) fun _ _ h => h

namespace Visit

section

variable {μ : World → Nat} {S : World → World → Prop} {R : Run → Run → Prop}
  {E : Fault → Fault → Prop} {α β : Type} {F : α → β → Prop}

abbrev Matches (μ : World → Nat) (S : World → World → Prop) (R : Run → Run → Prop)
    (E : Fault → Fault → Prop) (F : α → β → Prop) (p : Visit α) (q : Visit β) : Prop :=
  Attempt.Matches (fun t => μ t.world) (Trip.Level S R) E F p q

theorem work_level {p : Work α} {q : Work β} (h : Attempt.Matches μ S E F p q) :
    Visit.Matches μ S R E F (work p) (work q) where
  le t := h.le t.world
  alike t t' ht hl := by
    obtain ⟨hw,hr⟩ := h.alike t.world t'.world ht.world hl
    exact ⟨⟨hw,ht.run⟩,hr⟩

variable (hS : Run.InStep μ S R)

include hS

theorem current_level {f : Run → Visit α} {g : Run → Visit β}
    (hf : ∀ run run', R run run' → Visit.Matches μ S R E F (f run) (g run')) :
    Visit.Matches μ S R E F (current >>= f) (current >>= g) where
  le t := by
    rw [exec_bind_ok (exec_current t)]
    rcases hS.counts with h | h
    · rw [h]
      exact Nat.zero_le _
    · exact (hf t.run t.run (h t.run)).le t
  alike t t' ht hl := by
    rw [exec_bind_ok (exec_current t)] at hl ⊢
    rw [exec_bind_ok (exec_current t')]
    exact (hf t.run t'.run ht.run).alike t t' ht hl

theorem recordNeutral_level {p : Work α} (h : Work.RecordNeutral p) :
    Visit.Matches μ S R Eq Eq (work p) (work p) :=
  work_level (hS.plain h.unlogged)

theorem forLog_level {p : Work α} (h : Work.RecordNeutral p) :
    Visit.Matches μ S R Eq Eq (work (Work.forLog p)) (work (Work.forLog p)) :=
  work_level (hS.forLog h.unlogged)

theorem change_level (context : Option Value) {f : Time.Moment → ExecutionLog → ExecutionLog}
    (hf : ∀ now, ExecutionLog.Blind (f now)) :
    Visit.Matches μ S R Eq Eq (record fun r => r.change context f)
      (record fun r => r.change context f) := by
  refine current_level hS fun run run' hr => ?_
  obtain ⟨recorder,rfl,hl⟩ := hS.runs hr
  generalize run.recorder = before at hl
  cases hl with
  | none => exact .pure rfl
  | some hl => exact work_level (hl.change context hf)

theorem snapshot_level : Visit.Matches μ S R Eq Eq snapshot snapshot := by
  refine current_level hS fun run run' hr => ?_
  obtain ⟨recorder,rfl,-⟩ := hS.runs hr
  exact forLog_level hS (Work.AppendOnly.read _).toRecordNeutral

variable (n : Step Item)

theorem summary_level : Visit.Matches μ S R Eq Eq (summary n) (summary n) := by
  unfold summary
  split
  · exact .pure rfl
  · exact .pure rfl
  · refine current_level hS fun run run' hr => ?_
    obtain ⟨recorder,rfl,-⟩ := hS.runs hr
    refine (recordNeutral_level hS (Steps.scope_readOnly run).appendOnly.toRecordNeutral).next
      fun scope => ?_
    rw [map_eq_pure_bind]
    exact (forLog_level hS (.of _)).next fun _ => .pure rfl

theorem recordVisit_level (status : String) (input output : Item) (error : Option String) :
    Visit.Matches μ S R Eq Eq (recordVisit n status input output error)
      (recordVisit n status input output error) := by
  refine current_level hS fun run run' hr => ?_
  obtain ⟨recorder,rfl,hl⟩ := hS.runs hr
  generalize run.recorder = before at hl
  cases hl with
  | none => exact .pure rfl
  | some hl =>
    refine (summary_level hS n).next fun summary => work_level ?_
    exact hS.appendOnly .moment fun now => hl.add _ _

theorem opening_level : Visit.Matches μ S R Eq Eq (opening n) (opening n) := by
  have noted : Visit.Matches μ S R Eq Eq (noteProgress n) (noteProgress n) := by
    refine current_level hS fun run run' hr => ?_
    rw [hS.isSome hr]
    split
    · refine (snapshot_level hS).next fun context => ?_
      exact change_level hS _ fun _ _ _ _ => rfl
    · exact .pure rfl
  refine noted.next fun _ =>
    (recordNeutral_level hS (Work.AppendOnly.read _).toRecordNeutral).next fun config => ?_
  refine current_level hS fun run run' hr => ?_
  obtain ⟨recorder,rfl,-⟩ := hS.runs hr
  refine (recordNeutral_level hS (Steps.scope_readOnly run).appendOnly.toRecordNeutral).next
    fun scope => ?_
  exact recordNeutral_level hS (.of _)

theorem configInput_level : Visit.Matches μ S R Eq Eq (work (configInput n)) (work (configInput n)) :=
  recordNeutral_level hS (Work.AppendOnly.newObject _).toRecordNeutral

theorem skip_level (reason : String) : Visit.Matches μ S R Eq Eq (skip n reason) (skip n reason) := by
  refine (configInput_level hS n).next fun input => ?_
  refine (recordNeutral_level hS (Work.AppendOnly.plant _).toRecordNeutral).next fun output => ?_
  exact (recordVisit_level hS n _ input output _).next fun _ => .pure rfl

theorem performed_level (o : Outcome) :
    Visit.Matches μ S R Eq Eq (performed n o) (performed n o) := by
  have input : Visit.Matches μ S R Eq Eq (inputOf n o) (inputOf n o) := by
    unfold inputOf
    split
    · exact .pure rfl
    · exact configInput_level hS n
  have recorded : Visit.Matches μ S R Eq Eq (recordOutcome n o) (recordOutcome n o) := by
    unfold recordOutcome
    split
    · exact .pure rfl
    · exact input.next fun i => recordVisit_level hS n _ i _ _
  exact recorded.next fun _ => .pure rfl

theorem keepResponse_level (x : Item) :
    Visit.Matches μ S R Eq Eq (keepResponse x) (keepResponse x) where
  le _ := Nat.le_refl _
  alike _ _ ht _ := ⟨⟨ht.world,hS.respond x ht.run⟩,.ok rfl⟩

theorem perform_level : Visit.Matches μ S R Eq Eq (perform n) (perform n) := by
  unfold perform
  split
  · exact (recordNeutral_level hS (Work.AppendOnly.plant _).toRecordNeutral).next fun _ => .pure rfl
  · rename_i k hk
    refine current_level hS fun run run' hr => ?_
    refine (work_level (Steps.perform_level hS hr hk)).next fun o => ?_
    exact .guard (keepResponse_level hS _) fun _ => .pure rfl

theorem recordFailure_level (f : Fault) :
    Visit.Matches μ S R Eq Eq (recordFailure n f) (recordFailure n f) := by
  have input : Visit.Matches μ S R Eq Eq (failedInput n) (failedInput n) := by
    unfold failedInput
    split
    · refine current_level hS fun run run' hr => ?_
      obtain ⟨recorder,rfl,-⟩ := hS.runs hr
      refine (recordNeutral_level hS (Steps.entry_readOnly run _).appendOnly.toRecordNeutral).next
        fun _ => ?_
      exact recordNeutral_level hS (Work.AppendOnly.newObject _).toRecordNeutral
    · exact configInput_level hS n
  refine current_level hS fun run run' hr => ?_
  rw [hS.isSome hr]
  split
  · refine input.next fun input =>
      (recordNeutral_level hS (Work.AppendOnly.plant _).toRecordNeutral).next fun output => ?_
    refine (recordVisit_level hS n _ input output _).next fun _ => ?_
    refine (snapshot_level hS).next fun context => ?_
    exact change_level hS _ fun _ _ _ _ => rfl
  · exact .pure rfl

variable (hE : Run.Reports R E)

include hE

theorem failed_level (f : Fault) : Visit.Matches μ S R E Eq (failed n f) (failed n f) := by
  have reported : Visit.Matches μ S R E E (failure n f) (failure n f) :=
    current_level hS fun run run' hr => .pure (hE.run hr _ _ _ _)
  refine (hE.told (recordFailure_level hS n f)).next fun _ => ?_
  exact reported.bind (fun f => ⟨f,hE.same f⟩) fun f f' hf => .throw hf

theorem step_level : Visit.Matches μ S R E Eq (step n) (step n) := by
  rw [step_eq]
  refine (hE.told (opening_level hS n)).next fun v => ?_
  cases v with
  | some reason => exact hE.told (skip_level hS n reason)
  | none =>
    refine Attempt.Matches.next (perform_level hS n).caught fun r => ?_
    cases r with
    | ok o => exact hE.told (performed_level hS n o)
    | error f => exact failed_level hS n hE f

end

end Visit

namespace Launch

open Work

variable {μ : World → Nat} {S : World → World → Prop} {R : Run → Run → Prop}
  {E : Fault → Fault → Prop} {F : Report → Report → Prop} {rec rec' : Recorder}

theorem fail_of_reports {f : Fault} (h : f.reports = true) (rec : Recorder) (context : Option Item) :
    fail rec context f = pure f := by
  cases f <;> first | rfl | cases h

theorem readContext_appendOnly (context : Option Item) : AppendOnly (context.mapM Work.read) := by
  cases context with
  | none => exact AppendOnly.closed.pure _
  | some i =>
    rw [Option.mapM_some]
    exact AppendOnly.closed.map (.read i) _

theorem fail_level (hS : Run.InStep μ S R) (hl : rec.Level μ S rec')
    (hrun : ∀ message cause, E (.run message rec.log rec.extractionLog none none cause)
      (.run message rec'.log rec'.extractionLog none none cause))
    (context : Option Item) {f f' : Fault} (hf : E f f')
    (hsame : f' = f ∨ f.reports = true ∧ f'.reports = true) :
    Matches μ S Eq E (fail rec context f) (fail rec' context f') := by
  have reported (h : f.reports = true) (h' : f'.reports = true) :
      Matches μ S Eq E (fail rec context f) (fail rec' context f') := by
    rw [fail_of_reports h,fail_of_reports h']
    exact .pure hf
  rcases hsame with rfl | ⟨h,h'⟩
  · unfold fail
    split
    · exact .pure hf
    · refine (hS.forLog (readContext_appendOnly context).unlogged).next fun c => ?_
      exact (hl.change c fun _ _ _ _ => rfl).next fun _ => .pure (hrun _ _)
  · exact reported h h'

theorem failed_level (hS : Run.InStep μ S R) (hE : ∀ f, E f f) (hl : rec.Level μ S rec')
    (hrun : ∀ message cause, E (.run message rec.log rec.extractionLog none none cause)
      (.run message rec'.log rec'.extractionLog none none cause))
    (context : Option Item) {f f' : Fault} (hf : E f f')
    (hsame : f' = f ∨ f.reports = true ∧ f'.reports = true) :
    Matches μ S E F (fail rec context f >>= throw) (fail rec' context f' >>= throw) := by
  have failed : Matches μ S E E (fail rec context f) (fail rec' context f') :=
    (fail_level hS hl hrun context hf hsame).mono (fun e _ he => he ▸ hE e) fun _ _ h => h
  exact failed.bind (fun f => ⟨f,hE f⟩) fun f f' hf => .throw hf

theorem filedName_appendOnly (run : Run) (context : Item) : AppendOnly (filedName run context) := by
  refine .get_bind (fun w => ?_) fun _ _ => rfl
  exact AppendOnly.store.bind fun s => (AppendOnly.read _).bind fun name => .of _

theorem finish_level (hS : Run.InStep μ S R) (hE : ∀ f, E f f) (hl : rec.Level μ S rec')
    (hreport : ∀ context last filename, F ⟨context,last,rec.log,rec.extractionLog,filename⟩
      ⟨context,last,rec'.log,rec'.extractionLog,filename⟩) {run run' : Run} (hr : R run run') :
    Matches μ S E F (finish rec run) (finish rec' run') := by
  obtain ⟨recorder,rfl,-⟩ := hS.runs hr
  have finished :
      Matches μ S Eq F (finish rec run) (finish rec' { run with recorder := recorder }) := by
    refine (hS.plain (unlogged_edit _)).next fun context => ?_
    refine (hS.forLog (AppendOnly.read _).unlogged).next fun v => ?_
    refine (hl.change _ fun _ _ _ _ => rfl).next fun _ => ?_
    exact hS.appendOnly (filedName_appendOnly run context) fun name => .pure (hreport _ _ _)
  exact finished.mono (fun e _ he => he ▸ hE e) fun _ _ h => h

end Launch

end StepGraph
