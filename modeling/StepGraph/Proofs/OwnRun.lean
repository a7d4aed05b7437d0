import StepGraph.Proofs.Numbering
import StepGraph.Proofs.RunLog
import StepGraph.Proofs.VisitInStep

/-!
What a run leaves of the records in its world. Its own record and that of its document are new, and
no record of another run changes. Without an imaging step it changes nothing but the audit trail, and
of the audit trail it leaves the records of other runs as they are.
-/
namespace StepGraph

open Attempt Work

namespace Table

variable {ρ : Type} [Numbered ρ]

theorem largest_map {f : ρ → ρ} (hf : ∀ r, Numbered.id (f r) = Numbered.id r) (rows : List ρ) :
    largest (rows.map f) = largest rows := by
  induction rows with
  | nil => rfl
  | cons r rows ih => simp only [List.map_cons,largest,ih,hf]

theorem nextId_update (t : Table ρ) (id : Int) {f : ρ → ρ}
    (hf : ∀ r, Numbered.id (f r) = Numbered.id r) : (t.update id f).nextId = t.nextId := by
  unfold nextId update
  refine congrArg (fun x => (Option.map _ x).getD 1) (largest_map (fun r => ?_) t.rows)
  split
  · exact hf r
  · rfl

theorem largest_concat (rows : List ρ) (row : ρ) :
    largest (rows ++ [row]) =
      some ((largest rows).elim (Numbered.id row) (max · (Numbered.id row))) := by
  induction rows with
  | nil => rfl
  | cons r rows ih =>
    simp only [List.cons_append,largest,ih]
    cases largest rows with
    | none => exact congrArg some (Int.max_comm _ _)
    | some n => exact congrArg some (by simp only [Option.elim]; omega)

theorem nextId_concat (t : Table ρ) {row : ρ} (h : Numbered.id row = t.nextId) :
    ({ t with rows := t.rows ++ [row] } : Table ρ).nextId = t.nextId + 1 := by
  unfold nextId at h ⊢
  simp only [largest_concat]
  cases hl : largest t.rows with
  | none =>
    rw [hl] at h
    simp_all
  | some n =>
    rw [hl] at h
    simp only [Option.map_some,Option.getD_some,Option.elim] at h ⊢
    omega

theorem get?_update_ne (t : Table ρ) {id id' : Int} {f : ρ → ρ}
    (hf : ∀ r, Numbered.id (f r) = Numbered.id r) (hid : id ≠ id') :
    (t.update id f).get? id' = t.get? id' := by
  unfold get? update
  simp only
  induction t.rows with
  | nil => rfl
  | cons r rows ih =>
    rw [List.map_cons,List.find?_cons,List.find?_cons,ih]
    by_cases h : Numbered.id r = id
    · simp [h,hf,beq_eq_false_iff_ne.2 hid]
    · simp [h]

theorem get?_concat_ne (t : Table ρ) {row : ρ} {id : Int} (h : Numbered.id row ≠ id) :
    ({ t with rows := t.rows ++ [row] } : Table ρ).get? id = t.get? id := by
  unfold get?
  simp only
  rw [List.find?_append]
  simp [h]

end Table

def Table.stepsOf (t : Table StepLog) (run : Int) : List StepLog := t.rows.filter (·.run == run)

def Database.Ordered (db : Database) : Prop :=
  ∀ row ∈ db.stepLogs.rows, row.run < db.executionLogs.nextId

def Table.AddsFor (own : Option Int) (t t' : Table StepLog) : Prop :=
  ∃ added, t'.rows = t.rows ++ added ∧ ∀ row ∈ added, own = some row.run

/-- A run that may have a record of its own keeps to its own records: beside the audit trail nothing
changes, and in it no record of another run. At most so many runs and documents are new. -/
structure Database.KeepsTo (own : Option Int) (m n : Nat) (db db' : Database) : Prop where
  tables : ∃ runs steps documents,
    db' = { db with executionLogs := runs, stepLogs := steps, extractionLogs := documents }
  present : db'.executionLogs.present = db.executionLogs.present ∧
    db'.stepLogs.present = db.stepLogs.present ∧
    db'.extractionLogs.present = db.extractionLogs.present
  runs : ∀ id, own ≠ some id → db'.executionLogs.get? id = db.executionLogs.get? id
  newRuns : db.executionLogs.nextId ≤ db'.executionLogs.nextId ∧
    db'.executionLogs.nextId ≤ db.executionLogs.nextId + m
  newDocuments : db.extractionLogs.nextId ≤ db'.extractionLogs.nextId ∧
    db'.extractionLogs.nextId ≤ db.extractionLogs.nextId + n
  steps : db.stepLogs.AddsFor own db'.stepLogs
  climbs : db.stepLogs.Climbs db'.stepLogs

namespace Database.KeepsTo

variable {own : Option Int} {m m' n n' : Nat} {db db' db'' : Database}

theorem refl (own : Option Int) (m n : Nat) (db : Database) : db.KeepsTo own m n db where
  tables := ⟨_,_,_,rfl⟩
  present := ⟨rfl,rfl,rfl⟩
  runs _ _ := rfl
  newRuns := by omega
  newDocuments := by omega
  steps := ⟨[],(List.append_nil _).symm,fun _ h => absurd h List.not_mem_nil⟩
  climbs := refl_of Table.Climbs db.stepLogs

theorem trans (h : db.KeepsTo own m n db') (h' : db'.KeepsTo own m' n' db'') :
    db.KeepsTo own (m + m') (n + n') db'' where
  tables := by
    obtain ⟨_,_,_,rfl⟩ := h.tables
    obtain ⟨_,_,_,rfl⟩ := h'.tables
    exact ⟨_,_,_,rfl⟩
  present := ⟨h'.present.1.trans h.present.1,h'.present.2.1.trans h.present.2.1,
    h'.present.2.2.trans h.present.2.2⟩
  runs id hid := (h'.runs id hid).trans (h.runs id hid)
  newRuns := by
    have := h.newRuns
    have := h'.newRuns
    omega
  newDocuments := by
    have := h.newDocuments
    have := h'.newDocuments
    omega
  steps := by
    obtain ⟨added,ha,hown⟩ := h.steps
    obtain ⟨added',ha',hown'⟩ := h'.steps
    refine ⟨added ++ added',by rw [ha',ha,List.append_assoc],fun row hrow => ?_⟩
    exact (List.mem_append.1 hrow).elim (hown row) (hown' row)
  climbs := trans_of Table.Climbs h.climbs h'.climbs

theorem stepsOf (h : db.KeepsTo own m n db') {id : Int} (hid : own ≠ some id) :
    db'.stepLogs.stepsOf id = db.stepLogs.stepsOf id := by
  obtain ⟨added,ha,hown⟩ := h.steps
  have hnone : added.filter (·.run == id) = [] := by
    refine List.filter_eq_nil_iff.2 fun row hrow hrun => hid ?_
    rw [hown row hrow,beq_iff_eq.1 hrun]
  rw [Table.stepsOf,ha,List.filter_append,hnone,List.append_nil]
  rfl

end Database.KeepsTo

def World.KeepsTo (own : Option Int) (w w' : World) : Prop := w.db.KeepsTo own 0 0 w'.db

instance (own : Option Int) : IsPreorder World (World.KeepsTo own) where
  refl w := .refl own 0 0 w.db
  trans _ _ _ h h' := h.trans h'

namespace Work

variable {α : Type} {p : Work α}

theorem RecordNeutral.keepsTo (h : RecordNeutral p) (own : Option Int) :
    Keeps (World.KeepsTo own) p := by
  intro w
  have hdb : (p.exec w).2.db = w.db := h.records w
  unfold World.KeepsTo
  rw [hdb]
  exact .refl own 0 0 w.db

theorem forLog_keepsTo (h : RecordNeutral p) (own : Option Int) :
    Keeps (World.KeepsTo own) (forLog p) := by
  intro w
  have h := h.keepsTo own w
  rw [exec_forLog]
  rcases hw : p.exec w with ⟨e | x,w'⟩ <;> rw [hw] at h <;> exact h

end Work

namespace Recorder

theorem add_keepsTo (r : Recorder) (n : Node Item) (e : LogEntry) :
    Keeps (World.KeepsTo r.record?) (r.add n e) := by
  intro w
  rcases r.add_cases n e w with
    ⟨-,hw⟩ | ⟨run,id,db,hrun,hw,row,rfl,⟨hid,hnext⟩,hrow,-⟩ | ⟨hw,-⟩ <;> rw [hw]
  · exact refl_of (World.KeepsTo r.record?) w
  · rw [hrun]
    refine { Database.KeepsTo.refl (some run) 0 0 w.db with
      tables := ⟨_,_,_,rfl⟩, steps := ⟨[row],rfl,fun row' h => ?_⟩, climbs := ?_ }
    · rw [List.mem_singleton.1 h,hrow]
    · exact Table.climbs_concat w.db.stepLogs (hid.trans hnext)
  · exact refl_of (World.KeepsTo r.record?) w

theorem change_keepsTo (r : Recorder) (context : Option Value)
    {f : Time.Moment → ExecutionLog → ExecutionLog} (hf : ∀ now, ExecutionLog.Blind (f now)) :
    Keeps (World.KeepsTo r.record?) (r.change context f) := by
  intro w
  rcases r.change_cases context f w with
    ⟨-,hw⟩ | ⟨id,now,db,hid,hw,row,c,now',-,-,rfl⟩ | ⟨hw,-⟩ <;> rw [hw]
  · exact refl_of (World.KeepsTo r.record?) w
  · rw [hid]
    have hkeep (row : ExecutionLog) : Numbered.id
        { f now row with context := c.getD row.context, updatedAt := now' } = Numbered.id row :=
      (hf now).id_eq row
    have hnext := Table.nextId_update w.db.executionLogs id hkeep
    refine { Database.KeepsTo.refl (some id) 0 0 w.db with
      tables := ⟨_,_,_,rfl⟩, runs := fun id' h => ?_, newRuns := ?_ }
    · exact Table.get?_update_ne w.db.executionLogs hkeep fun he => h (he ▸ rfl)
    · exact ⟨Int.le_of_eq hnext.symm,Int.le_of_eq (hnext.trans (Int.add_zero _).symm)⟩
  · exact refl_of (World.KeepsTo r.record?) w

end Recorder

theorem Steps.perform_keepsTo {rec : Recorder} {run : Run} (hrun : run.recorder = some rec)
    {node : Step Item} {k : StepKind} (hk : node.kind? = some k)
    (hplain : node.kind? ≠ some .imaging) :
    Keeps (World.KeepsTo rec.record?) (k.perform run node) := by
  refine (perform_contextLast run hk).within Keeps.closed (fun _ h => (h hplain).keepsTo _) ?_
  intro name status input output error
  unfold Run.logPhase
  rw [hrun]
  exact (Work.AppendOnly.moment.keepsTo _).bind fun _ => Keeps.closed.map (rec.add_keepsTo _ _) _

namespace Visit

variable {rec : Recorder}

theorem around_keepsTo : Around (Keeps (Under (· = some rec) (World.KeepsTo rec.record?))) := by
  refine around_under (fun hp => hp.appendOnly.keepsTo _)
    (fun hp => Work.forLog_keepsTo hp.appendOnly.toRecordNeutral _) ?_ ?_
  · rintro r ⟨⟩ context f hf
    exact rec.change_keepsTo context hf
  · rintro r ⟨⟩ n e
    exact rec.add_keepsTo n e

theorem step_keepsTo {n : Step Item} (hplain : n.kind? ≠ some .imaging) :
    Keeps (Under (· = some rec) (World.KeepsTo rec.record?)) (step n) := by
  refine around_keepsTo.step n (Keeps.caught ?_)
  refine perform_under n ((Work.AppendOnly.plant _).keepsTo _) fun k hk run hrun => ?_
  exact Steps.perform_keepsTo hrun hk hplain

end Visit

end StepGraph

namespace StepGraph

open Attempt Work

/-- A run keeps to its own records while it opens them; a record of its own is new. -/
structure Database.KeepsOpening (own : Option Int) (m n : Nat) (db db' : Database) : Prop where
  keeps : db.KeepsTo own m n db'
  new : ∀ id, own = some id → id = db.executionLogs.nextId ∧ id < db'.executionLogs.nextId

namespace Database

variable {own : Option Int} {m n : Nat} {db db' db'' : Database}

theorem KeepsTo.unopened (h : db.KeepsTo none m n db') : db.KeepsOpening none m n db' :=
  ⟨h,fun _ h => nomatch h⟩

theorem KeepsTo.opening (h : db.KeepsTo own 0 n db') (h' : db'.KeepsOpening own m 0 db'') :
    db.KeepsOpening own m n db'' where
  keeps := by
    have := h.trans h'.keeps
    rwa [Nat.zero_add] at this
  new id hid := by
    obtain ⟨hnext,hlt⟩ := h'.new id hid
    have := h.newRuns
    exact ⟨by omega,hlt⟩

end Database

def Launch.given (done : Except Fault Recorder) : Option Int := done.toOption.bind Recorder.record?

theorem Recorder.start_keepsTo (rec : Recorder) (context : Value) {w : World}
    (hpos : w.db.executionLogs.nextId ≠ 0) :
    w.db.KeepsOpening (Launch.given ((rec.start context).exec w).1) 1 0
      ((rec.start context).exec w).2.db := by
  unfold start
  rw [exec_bind]
  rcases logWrite_cases (rec.writes_newRecord context) w with
    ⟨id,db,hw,row,rfl,hrow,rfl,-⟩ | ⟨hw,-,hnone⟩
  · have hnext := w.db.executionLogs.nextId_concat hrow
    rw [hw]
    change w.db.KeepsOpening (Recorder.record? { rec with log := some w.db.executionLogs.nextId }) 1 0 _
    rw [Recorder.record?_of_log rfl hpos]
    refine ⟨{ Database.KeepsTo.refl _ 1 0 w.db with
      tables := ⟨_,_,_,rfl⟩, runs := fun id h => ?_, newRuns := ?_ },?_⟩
    · exact w.db.executionLogs.get?_concat_ne fun he => h (congrArg some (hrow.symm.trans he))
    · exact ⟨Int.le_trans (Int.le_of_lt (Int.lt_succ _)) (Int.le_of_eq hnext.symm),Int.le_of_eq hnext⟩
    · rintro id ⟨⟩
      exact ⟨rfl,Int.lt_of_lt_of_le (Int.lt_succ _) (Int.le_of_eq hnext.symm)⟩
  · rcases hp : (logWrite (rec.newRecord context)).exec w with ⟨f | log,w₁⟩ <;> rw [hp] at hw hnone
    · cases hw
      exact (Database.KeepsTo.refl none 1 0 w.db).unopened
    · cases hw
      obtain rfl := hnone log rfl
      exact (Database.KeepsTo.refl none 1 0 w.db).unopened

namespace Launch

theorem openDocument_keepsTo (mode : Mode) (r : Request) (own : Option Int) :
    Keeps (fun w w' => w.db.KeepsTo own 0 1 w'.db) (openDocument mode r) := by
  intro w
  unfold openDocument
  cases keptText r.extracted with
  | error f => exact .refl own 0 1 w.db
  | ok text =>
    rw [exec_bind_of]
    rcases logWrite_cases (writes_newDocument mode r text) w with
      ⟨id,db,hw,row,rfl,hrow⟩ | ⟨hw,-⟩ <;> rw [hw]
    · have hnext := w.db.extractionLogs.nextId_concat hrow
      refine { Database.KeepsTo.refl own 0 1 w.db with tables := ⟨_,_,_,rfl⟩, newDocuments := ?_ }
      constructor
      · exact Int.le_trans (Int.le_of_lt (Int.lt_succ _)) (Int.le_of_eq hnext.symm)
      · exact Int.le_of_eq hnext
    · exact .refl own 0 1 w.db

theorem opening_keepsTo (mode : Mode) (workflow : Int) (r : Request) {w : World}
    (hpos : w.db.executionLogs.nextId ≠ 0) :
    w.db.KeepsOpening (given (((opening mode workflow r).exec w).1.map Prod.snd)) 1 1
      ((opening mode workflow r).exec w).2.db := by
  unfold opening
  rcases findKind_cases r w with ⟨-,kind,hk⟩ | ⟨-,hk⟩
  · have hdocument := fun own => openDocument_keepsTo mode r own w
    rw [exec_bind_ok hk,exec_bind]
    generalize (openDocument mode r).exec w = done at hdocument ⊢
    rcases done with ⟨f | document,w₁⟩
    · exact ((hdocument none).trans (.refl none 1 0 w₁.db)).unopened
    · simp only at hdocument ⊢
      have hnext := (hdocument none).newRuns
      have started := Recorder.start_keepsTo
        { workflow := some workflow, mode := mode.name, user := r.user, extractionLog := document,
          extractionType := r.extractionType, transformationType := r.transformationType }
        (.object []) (w := w₁) (by omega)
      rw [exec_bind]
      generalize (Recorder.start _ _).exec w₁ = done at started ⊢
      rcases done with ⟨f | rec,w₂⟩
      · exact (hdocument none).opening started
      · exact (hdocument rec.record?).opening started
  · rw [exec_bind_error hk]
    exact (Database.KeepsTo.refl none 1 1 w.db).unopened

theorem prepare_keepsTo (mode : Mode) (workflow : Int) (r : Request) (kind : Option DocumentKind)
    (format : String) (own : Option Int) :
    Keeps (World.KeepsTo own) (prepare mode workflow r kind format) :=
  (prepare_unreported mode workflow r kind format).toRecordNeutral.keepsTo own

theorem fail_keepsTo (rec : Recorder) (context : Option Item) (f : Fault) :
    Keeps (World.KeepsTo rec.record?) (fail rec context f) := by
  unfold fail
  split
  · exact Keeps.closed.pure _
  · refine (forLog_keepsTo (readContext_appendOnly context).toRecordNeutral _).bind fun c => ?_
    exact (rec.change_keepsTo c fun _ _ _ _ => rfl).bind fun _ => Keeps.closed.pure _

theorem finish_keepsTo (rec : Recorder) (run : Run) :
    Keeps (World.KeepsTo rec.record?) (finish rec run) := by
  refine ((RecordNeutral.edit _).keepsTo _).bind fun context => ?_
  refine (forLog_keepsTo (AppendOnly.read _).toRecordNeutral _).bind fun v => ?_
  refine (rec.change_keepsTo _ fun _ _ _ _ => rfl).bind fun _ => ?_
  exact ((filedName_appendOnly run context).keepsTo _).bind fun name => Keeps.closed.pure _

theorem conclude_keepsTo (rec : Recorder) (context : Item) (p : Walked × Run) :
    Keeps (World.KeepsTo rec.record?) (conclude rec context p) := by
  unfold conclude
  split
  · exact (fail_keepsTo rec (some context) _).bind fun f => .throw f
  · exact finish_keepsTo rec p.2

end Launch

end StepGraph
