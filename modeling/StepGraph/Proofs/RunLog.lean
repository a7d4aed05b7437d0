import StepGraph.Proofs.Prepare
import StepGraph.Proofs.WalkLog

/-!
The record of a whole run. A run that is opened, prepared and walked closes its record in one of two
ways, and the record agrees with what the run gives back, unless the run escapes: before its record
is opened, because its record has the number zero, or because its report cannot be made. Where no
write is lost, the record is there behind the opening and says that the run is under way, unless the
run ends before: the kind of document cannot be asked for, or the submitted data cannot be kept as
text.
-/
namespace StepGraph

open Attempt Work

namespace Recorder

theorem record?_of_log {r : Recorder} {id : Int} (h : r.log = some id) (hid : id ≠ 0) :
    r.record? = some id := by simp [record?,h,hid]

def Started (w : World) (id : Int) (db : Database) : Prop :=
  ∃ row : ExecutionLog, db = { w.db with
      executionLogs := { w.db.executionLogs with rows := w.db.executionLogs.rows ++ [row] } } ∧
    row.id = id ∧ id = w.db.executionLogs.nextId ∧ row.status = "running"

theorem writes_newRecord (r : Recorder) (context : Value) :
    Writes Started (r.newRecord context) := by
  intro w
  refine .look (q := database) rfl (OnlyDataFault.ok _) ?_
  rintro db ⟨⟩
  refine .look rfl (OnlyDataFault.all _) fun _ _ => .look rfl (OnlyDataFault.heldAll _) fun _ _ => ?_
  refine .look rfl (OnlyDataFault.kept _) fun _ _ =>
    .look (q := moment) rfl (OnlyDataFault.ok _) fun _ _ => ?_
  exact .set ⟨_,rfl,rfl,rfl,rfl⟩

end Recorder

/-- A number can be looked up: the table was dropped, or the number fits into a record. -/
def Table.CanLookUp {ρ : Type} (t : Table ρ) (id : Int) : Prop :=
  t.present = true → fitsRecord id = true

namespace Launch

def CanLookUpKind (r : Request) (db : Database) : Prop :=
  match r.extractionType.filter (· != 0), r.transformationType.filter (· != 0) with
  | some id, _ => db.extractionTypes.CanLookUp id
  | none, some id => db.transformationTypes.CanLookUp id
  | none, none => True

theorem find_cases {ρ : Type} [Numbered ρ] {t : Table ρ} {id : Int} {p : Work (Option ρ)} {w : World}
    (hp : p.exec w = (t.find id,w)) :
    (t.CanLookUp id ∧ ∃ found, (bestEffort p).exec w = (.ok found,w)) ∨
    (¬ t.CanLookUp id ∧ (bestEffort p).exec w = (.error (.misuse .tooLarge),w)) := by
  rw [exec_bestEffort,hp]
  unfold Table.CanLookUp Table.find Table.all held
  by_cases ht : t.present = true
  · by_cases hf : fitsRecord id = true
    · refine .inl ⟨fun _ => hf,some (t.get? id),?_⟩
      rw [if_pos ht,if_pos hf]
      rfl
    · refine .inr ⟨fun h => hf (h ht),?_⟩
      rw [if_pos ht,if_neg hf]
      rfl
  · refine .inl ⟨fun h => absurd h ht,none,?_⟩
    rw [if_neg ht]
    rfl

theorem findKind_cases (r : Request) (w : World) :
    (CanLookUpKind r w.db ∧ ∃ kind, (bestEffort (findKind r)).exec w = (.ok kind,w)) ∨
    (¬ CanLookUpKind r w.db ∧ (bestEffort (findKind r)).exec w = (.error (.misuse .tooLarge),w)) := by
  unfold CanLookUpKind findKind
  cases r.extractionType.filter (· != 0) with
  | some id => exact find_cases rfl
  | none =>
    cases r.transformationType.filter (· != 0) with
    | some id => exact find_cases rfl
    | none => exact .inl ⟨trivial,some none,rfl⟩

def Keepable (r : Request) : Prop := ∃ text, keptText r.extracted = .ok text

def Documented (w : World) (_ : Int) (db : Database) : Prop :=
  ∃ row : ExtractionLog, db = { w.db with
      extractionLogs := { w.db.extractionLogs with rows := w.db.extractionLogs.rows ++ [row] } } ∧
    row.id = w.db.extractionLogs.nextId

theorem writes_newDocument (mode : Mode) (r : Request) (text : Option String) :
    Writes Documented (newDocument mode r text) := by
  intro w
  refine .look (q := database) rfl (OnlyDataFault.ok _) ?_
  rintro db ⟨⟩
  refine .look rfl (OnlyDataFault.all _) fun _ _ => .look rfl (OnlyDataFault.heldAll _) fun _ _ => ?_
  exact .set ⟨_,rfl,rfl⟩

/-- The kind of document that a request names, and the records of the document and of the run. -/
def opening (mode : Mode) (workflow : Int) (r : Request) : Work (Option DocumentKind × Recorder) := do
  let kind := (← bestEffort (findKind r)).join
  let document ← openDocument mode r
  let recorder ← Recorder.start
    { workflow := some workflow, mode := mode.name, user := r.user, extractionLog := document,
      extractionType := r.extractionType, transformationType := r.transformationType }
    (.object [])
  return (kind,recorder)

theorem run_eq (mode : Mode) {r : Request} {workflow : Int} (h : r.workflow = some workflow) :
    run mode r = opening mode workflow r >>= fun o =>
      attempt (prepare mode workflow r o.1 (formatOf mode r o.1)) >>= fun ready =>
        proceed o.2 workflow (formatOf mode r o.1) ready := by
  unfold run opening
  rw [h]
  simp only [bind_assoc,pure_bind]

def OpensRecords (r : Request) (w : World) (done : Except Fault (Option DocumentKind × Recorder))
    (w' : World) : Prop :=
  (CanLookUpKind r w.db ∧ Keepable r ∧ ∃ kind rec, done = .ok (kind,rec) ∧
    rec.log = some w.db.executionLogs.nextId ∧
    ∃ row, w'.db.executionLogs.get? w.db.executionLogs.nextId = some row ∧
      row.status = "running") ∨
  (¬ (CanLookUpKind r w.db ∧ Keepable r) ∧ (∃ f, done = .error f) ∧ w.SameRuns w')

theorem openDocument_unless (mode : Mode) (r : Request) :
    Unless World.lost (fun w done w' => w.SameRuns w' ∧
      ((Keepable r ∧ ∃ id, done = .ok id) ∨ (¬ Keepable r ∧ ∃ f, done = .error f)))
      (openDocument mode r) := by
  unfold openDocument
  cases hk : keptText r.extracted with
  | error f =>
    intro w
    refine ⟨Nat.le_refl _,fun _ => ⟨refl_of World.SameRuns w,.inr ⟨?_,f,rfl⟩⟩⟩
    rintro ⟨text,ht⟩
    cases hk.symm.trans ht
  | ok text =>
    apply Unless.mono (logWrite_unless (writes_newDocument mode r text))
    rintro w done w' ⟨id,db,rfl,rfl,row,rfl,-⟩
    exact ⟨⟨rfl,Nat.le_refl _⟩,.inl ⟨⟨text,hk⟩,some id,rfl⟩⟩

theorem start_unless (rec : Recorder) (context : Value) :
    Unless World.lost (fun w done w' => ∃ rec', done = .ok rec' ∧
      rec'.log = some w.db.executionLogs.nextId ∧
      ∃ row, w'.db.executionLogs.get? w.db.executionLogs.nextId = some row ∧
        row.status = "running") (rec.start context) := by
  apply ((logWrite_unless (rec.writes_newRecord context)).bind fun id => .pure _).mono
  rintro w done w' (⟨e,⟨x,db,hx,-⟩,-⟩ | ⟨x,w₁,⟨id,db,hx,rfl,row,rfl,rfl,hid,hs⟩,rfl,rfl⟩)
  · cases hx
  · cases hx
    exact ⟨_,rfl,congrArg some hid,row,Table.get?_concat w.db.executionLogs hid,hs⟩

theorem opening_unless (mode : Mode) (workflow : Int) (r : Request) :
    Unless World.lost (OpensRecords r) (opening mode workflow r) := by
  intro w
  unfold opening
  rcases findKind_cases r w with ⟨ha,kind,hk⟩ | ⟨ha,hk⟩
  · rw [exec_bind_ok hk]
    let recorder (document : Option Int) : Recorder :=
      { workflow := some workflow, mode := mode.name, user := r.user, extractionLog := document,
        extractionType := r.extractionType, transformationType := r.transformationType }
    obtain ⟨hle,h⟩ := (openDocument_unless mode r).bind (fun document =>
      (start_unless (recorder document) (.object [])).bind fun rec => .pure (kind.join,rec)) w
    refine ⟨hle,fun hl => ?_⟩
    rcases h hl with ⟨e,⟨hs,⟨-,id,he⟩ | ⟨hk,-⟩⟩,hd⟩ | ⟨document,w₁,⟨hs,hdocument⟩,hrest⟩
    · cases he
    · exact .inr ⟨fun hp => hk hp.2,⟨e,hd⟩,hs⟩
    · obtain ⟨hkeep,-⟩ | ⟨-,f,hf⟩ := hdocument
      · obtain ⟨e,⟨rec,he,-⟩,-⟩ | ⟨rec,w₂,⟨rec',hrec,hlog,hrow⟩,hd,rfl⟩ := hrest
        · cases he
        · cases hrec
          rw [hs.logs] at hlog hrow
          exact .inl ⟨ha,hkeep,kind.join,rec,hd,hlog,hrow⟩
      · cases hf
  · rw [exec_bind_error hk]
    exact ⟨Nat.le_refl _,fun _ => .inr ⟨fun h => ha h.1,⟨_,rfl⟩,refl_of World.SameRuns w⟩⟩

end Launch

end StepGraph

namespace StepGraph.Launch

open Attempt Work

/-- The record of a run agrees with what the run gives back: it is completed and has the context of
the report, or it is failed and has the text of a fault that names it. -/
def RowAgrees (id : Int) (done : Except Fault Report) (w : World) : Prop :=
  ∃ row, w.db.executionLogs.get? id = some row ∧
    ((∃ report v, done = .ok report ∧ report.executionLog = some id ∧ row.status = "completed" ∧
        w.store.read report.context = .ok v ∧ row.context = v.plain) ∨
      ∃ message extractionLog node label cause,
        done = .error (.run message (some id) extractionLog node label cause) ∧
        row.status = "failed" ∧ row.error = some message)

/-- The record of a run is completed, and still the run ends with a fault that reports no run. -/
def Escapes (id : Int) (done : Except Fault Report) (w : World) : Prop :=
  (∃ f, done = .error f ∧ f.reports = false) ∧
    ∃ row, w.db.executionLogs.get? id = some row ∧ row.status = "completed"

theorem Escapes.not_rowAgrees {id : Int} {done : Except Fault Report} {w : World}
    (h : Escapes id done w) : ¬ RowAgrees id done w := by
  obtain ⟨⟨f,rfl,hf⟩,-⟩ := h
  rintro ⟨row,-,⟨report,v,hd,-⟩ | ⟨message,e,node,label,cause,hd,-⟩⟩
  · cases hd
  · cases hd
    cases hf

/-- The name under which a run filed its document is a text, or there is none. -/
def FiledUnderText (w : World) (context : Item) : Prop :=
  ∃ v, w.store.read (filedItem w.store context) = .ok v ∧ (v.isNull = true ∨ ∃ s, Rule.text v = .ok s)

def copied (run : Run) (w : World) : World × Item :=
  let r := Context.copy w.store run.context
  ({ w with store := r.1 },r.2)

def TextNamed (run : Run) (w : World) : Prop := ∀ e ∈ w.oddNames, (e.1 == run.context) = false

/-- A run that walked to an end can be reported: only texts name the entries of its context, and so
they do the filed document. -/
structure Reportable (run : Run) (w : World) : Prop where
  names : TextNamed run w
  filed : FiledUnderText (copied run w).1 (copied run w).2

theorem checkNames_cases (run : Run) (w : World) :
    (TextNamed run w ∧ checkNames run w.oddNames = .ok ()) ∨
      (¬ TextNamed run w ∧ ∃ ps, checkNames run w.oddNames = .problems ps) := by
  unfold checkNames
  cases hown : w.oddNames.filter (·.1 == run.context) with
  | nil => exact .inl ⟨fun e he => by simpa using List.filter_eq_nil_iff.1 hown e he,rfl⟩
  | cons e own =>
    refine .inr ⟨fun h => ?_,_,rfl⟩
    have he : e ∈ w.oddNames.filter (·.1 == run.context) := by simp [hown]
    obtain ⟨hmem,heq⟩ := List.mem_filter.1 he
    rw [h e hmem] at heq
    cases heq

theorem check_cases (place : String) (v : Value) :
    ((v.isNull = true ∨ ∃ s, Rule.text v = .ok s) ∧
      ∃ x, Entries.check Rule.text.optional place v = .ok x) ∨
    (¬ (v.isNull = true ∨ ∃ s, Rule.text v = .ok s) ∧
      ∃ ps, Entries.check Rule.text.optional place v = .problems ps) := by
  unfold Entries.check Rule.optional
  cases hn : v.isNull with
  | true => exact .inl ⟨.inl rfl,none,rfl⟩
  | false =>
    cases ht : Rule.text v with
    | ok s => exact .inl ⟨.inr ⟨s,rfl⟩,some s,rfl⟩
    | error e => exact .inr ⟨by simp,_,rfl⟩

theorem filedName_cases (run : Run) (context : Item) (w : World) :
    ((TextNamed run w ∧ FiledUnderText w context) ∧
      ∃ name, (filedName run context).exec w = (.ok name,w)) ∨
    (¬ (TextNamed run w ∧ FiledUnderText w context) ∧
      ∃ f, (filedName run context).exec w = (.error f,w) ∧ f.reports = false) := by
  have hexec : (filedName run context).exec w = (Work.read (filedItem w.store context) >>= fun name =>
      Work.of (((fun _ filed => filed) <$> checkNames run w.oddNames <*>
        Entries.check Rule.text.optional "actual_filename" name).toExcept
          "WorkflowRunResult")).exec w := rfl
  have hread : (Work.read (filedItem w.store context)).exec w =
    (w.store.read (filedItem w.store context),w) := rfl
  rw [hexec,exec_bind,hread]
  unfold FiledUnderText
  cases hv : w.store.read (filedItem w.store context) with
  | error f =>
    exact .inr ⟨by simp,f,rfl,Fault.reports_of_dataFault (OnlyDataFault.storeRead _ _ f hv)⟩
  | ok v =>
    simp only
    rcases checkNames_cases run w with ⟨hn,hc⟩ | ⟨hn,ps,hc⟩ <;>
      rcases check_cases "actual_filename" v with ⟨ht,x,hx⟩ | ⟨ht,qs,hx⟩ <;> rw [hc,hx]
    · exact .inl ⟨⟨hn,v,rfl,ht⟩,x,rfl⟩
    · exact .inr ⟨fun h => ht (by simpa using h.2),_,rfl,rfl⟩
    · exact .inr ⟨fun h => hn h.1,_,rfl,rfl⟩
    · exact .inr ⟨fun h => hn h.1,_,rfl,rfl⟩

theorem complete_unless (rec : Recorder) (context : Item) {id : Int} (hid : rec.record? = some id) :
    Unless World.lost (fun w r w' => r = .ok () ∧ w'.store = w.store ∧ w'.oddNames = w.oddNames ∧
      ∃ row v, w'.db.executionLogs.get? id = some row ∧ row.status = "completed" ∧
        w.store.read context = .ok v ∧ row.context = v.plain)
      (forLog (Work.read context) >>= rec.complete) := by
  have read : Unless World.lost (fun w r w' => ∃ v, w.store.read context = .ok v ∧ r = .ok v ∧ w' = w)
      (forLog (Work.read context)) := forLog_unless fun _ => rfl
  refine (read.bind fun v => rec.change_unless (some v) (fun now row =>
    { row with status := "completed", completedAt := some now }) (fun _ _ => rfl) hid).mono ?_
  rintro w r w' (⟨e,⟨v,-,hv,-⟩,-⟩ | ⟨v,w₁,⟨v',hv,he,rfl⟩,hr,c,now,now',hc,hw⟩)
  · cases hv
  · cases he
    obtain rfl := Recorder.mapKept_eq hc
    obtain ⟨row,-,hrow⟩ := hw.row
    exact ⟨hr,hw.store,hw.oddNames,_,v,hrow,rfl,hv,rfl⟩

theorem finish_unless (rec : Recorder) (run : Run) {id : Int} (hid : rec.record? = some id) :
    Unless World.lost (fun w done w' => (Reportable run w ∧ RowAgrees id done w') ∨
      (¬ Reportable run w ∧ Escapes id done w')) (finish rec run) := by
  have hlog : rec.log = some id := (Option.filter_eq_some_iff.1 hid).1
  intro w
  obtain ⟨hle,hc⟩ := complete_unless rec (copied run w).2 hid (copied run w).1
  have hfinish : (finish rec run).exec w = ((forLog (Work.read (copied run w).2) >>= rec.complete) >>=
      fun _ => filedName run (copied run w).2 >>= fun name =>
        pure ⟨(copied run w).2,run.last,rec.log,rec.extractionLog,name⟩).exec (copied run w).1 := by
    rw [bind_assoc]
    rfl
  rw [hfinish,exec_bind]
  rcases he : (forLog (Work.read (copied run w).2) >>= rec.complete).exec (copied run w).1 with
    ⟨e | _,w₁⟩ <;> rw [he] at hle hc <;> simp only at hle hc ⊢
  · exact ⟨hle,fun hl => by cases (hc hl).1⟩
  · have same (hs : w₁.store = (copied run w).1.store) (ho : w₁.oddNames = (copied run w).1.oddNames) :
        TextNamed run w₁ ∧ FiledUnderText w₁ (copied run w).2 ↔ Reportable run w := by
      unfold TextNamed FiledUnderText
      rw [hs,ho]
      exact ⟨fun h => ⟨h.1,h.2⟩,fun h => ⟨h.names,h.filed⟩⟩
    rcases filedName_cases run (copied run w).2 w₁ with ⟨hr,name,hn⟩ | ⟨hr,f,hn,hf⟩
    · rw [exec_bind_ok hn]
      refine ⟨hle,fun hl => ?_⟩
      obtain ⟨-,hs,ho,row,v,hrow,hstatus,hv,hcontext⟩ := hc hl
      refine .inl ⟨(same hs ho).1 hr,row,hrow,.inl ⟨_,v,rfl,hlog,hstatus,?_,hcontext⟩⟩
      simp only [exec_pure,hs]
      exact hv
    · rw [exec_bind_error hn]
      refine ⟨hle,fun hl => ?_⟩
      obtain ⟨-,hs,ho,row,v,hrow,hstatus,-⟩ := hc hl
      exact .inr ⟨fun h => hr ((same hs ho).2 h),⟨f,rfl,hf⟩,row,hrow,hstatus⟩

theorem fail_unless (rec : Recorder) (context : Option Item) {f : Fault} (hf : f.reports = false)
    {id : Int} (hid : rec.record? = some id) :
    Unless World.lost (fun _ done w' => ∃ extractionLog,
      done = .ok (.run f.message (some id) extractionLog none none (some f)) ∧
      ∃ row, w'.db.executionLogs.get? id = some row ∧ row.status = "failed" ∧
        row.error = some f.message) (fail rec context f) := by
  have hlog : rec.log = some id := (Option.filter_eq_some_iff.1 hid).1
  have looked : Unless World.lost (fun w done w' => ∃ c, done = .ok c ∧ w' = w)
      (forLog (context.mapM Work.read)) := by
    have hexec (w : World) : (context.mapM Work.read).exec w = (context.mapM w.store.read,w) := by
      cases context with
      | none => rfl
      | some i =>
        rw [Option.mapM_some,Option.mapM_some,exec_map]
        rfl
    exact (forLog_unless hexec).mono fun w r w' ⟨c,_,hc,hw⟩ => ⟨c,hc,hw⟩
  unfold fail
  split
  · cases hf
  · have closed (c : Option Value) := rec.change_unless c (fun now row =>
      { row with status := "failed", error := some f.message, completedAt := some now })
      (fun _ _ => rfl) hid
    apply (looked.bind fun c => (closed c).bind fun _ => .pure _).mono
    rintro w r w' (⟨e,⟨c,hc,-⟩,-⟩ | ⟨c,w₁,-,(⟨e,⟨he,-⟩,-⟩ | ⟨_,w₂,hchange,rfl,rfl⟩)⟩)
    · cases hc
    · cases he
    · obtain ⟨-,c',now,now',-,hw⟩ := hchange
      obtain ⟨row,-,hrow⟩ := hw.row
      exact ⟨rec.extractionLog,by rw [hlog],_,hrow,rfl,rfl⟩

def outset (rec : Recorder) (workflow : Int) (format : String) (start : Ready) : Run :=
  { context := start.context, format := format, workflow := some workflow, recorder := some rec }

/-- A walk comes to an end by itself and leaves its run in a world. -/
def Arrives (rec : Recorder) (workflow : Int) (format : String) (start : Ready) (w : World)
    (run : Run) (w' : World) : Prop :=
  ∃ visited, (traverse start.graph (outset rec workflow format start)).exec w =
    (.ok (⟨visited,.ok ()⟩,run),w')

theorem arrives_iff {rec : Recorder} {workflow : Int} {format : String} {start : Ready} {w w₁ : World}
    {walked : Walked} {run : Run}
    (ht : (traverse start.graph (outset rec workflow format start)).exec w =
      (.ok (walked,run),w₁)) (run' : Run) (w' : World) :
    Arrives rec workflow format start w run' w' ↔
      walked.outcome = .ok () ∧ run' = run ∧ w' = w₁ := by
  constructor
  · rintro ⟨visited,ht'⟩
    cases ht.symm.trans ht'
    exact ⟨rfl,rfl,rfl⟩
  · rintro ⟨ho,rfl,rfl⟩
    obtain ⟨visited,outcome⟩ := walked
    cases ho
    exact ⟨visited,ht⟩

theorem failed_unless (rec : Recorder) (context : Option Item) {f : Fault} {id : Int}
    (hid : rec.record? = some id) :
    Unless World.lost (fun w done w' => (f.reports = true → RowAgrees id (.error f) w) →
      RowAgrees id done w') (fail rec context f >>= throw : Work Report) := by
  cases hf : f.reports with
  | false =>
    refine ((fail_unless rec context hf hid).bind (R := fun f w done w' => done = .error f ∧ w' = w)
      fun f w => ⟨Nat.le_refl _,fun _ => ⟨rfl,rfl⟩⟩).mono ?_
    rintro w done w' (⟨e,⟨x,hx,-⟩,-⟩ | ⟨f',w₁,⟨x,hx,row,hrow,hstatus,herror⟩,rfl,rfl⟩) -
    · cases hx
    · cases hx
      exact ⟨row,hrow,.inr ⟨_,_,_,_,_,rfl,hstatus,herror⟩⟩
  | true =>
    cases f with
    | run message executionLog extractionLog node label cause =>
      exact fun w => ⟨Nat.le_refl _,fun _ h => h rfl⟩
    | _ => cases hf

theorem traverse_unless {rec : Recorder} {id : Int} (hid : rec.record? = some id)
    (graph : Graph Item) (run : Run) (hrun : run.recorder = some rec) :
    Unless World.lost (fun _ done w' => ∃ walked run', done = .ok (walked,run') ∧
      ∀ f, walked.outcome = .error f → f.reports = true → RowAgrees id (.error f) w')
      (traverse graph run) := by
  intro w
  let t : Trip := ⟨w,run⟩
  have hlog : t.log? = some id := by
    unfold Trip.log?
    rw [hrun]
    exact hid
  refine ⟨Visit.walk_lost_le graph 100 t,fun hl => ⟨_,_,rfl,?_⟩⟩
  intro f hf hr
  obtain ⟨stops,groups,-,-,-,-,verdict,-⟩ := Visit.walk_told graph 100 t id hlog hl
  cases f with
  | run message executionLog extractionLog node label cause =>
    obtain ⟨rfl,-,-,phases,last,whole,-,-,-,hrow,hstatus,herror⟩ :=
      verdict.closes (congrArg Visit.endedByStep? hf)
    exact ⟨whole,hrow,.inr ⟨message,extractionLog,node,label,cause,rfl,hstatus,herror⟩⟩
  | _ => cases hr

def conclude (rec : Recorder) (context : Item) (p : Walked × Run) : Work Report :=
  match p.1.outcome with
  | .error f => fail rec (some context) f >>= throw
  | .ok () => finish rec p.2

theorem proceed_unless (rec : Recorder) (workflow : Int) (format : String)
    {ready : Except Fault Ready} (hready : ReportsNoRun ready) {id : Int}
    (hid : rec.record? = some id) :
    Unless World.lost (fun w done w' =>
      ((∀ start, ready = .ok start → ∀ run w₁, Arrives rec workflow format start w run w₁ →
        Reportable run w₁) ∧ RowAgrees id done w') ∨
      ((∃ start, ready = .ok start ∧ ∃ run w₁, Arrives rec workflow format start w run w₁ ∧
        ¬ Reportable run w₁) ∧ Escapes id done w')) (proceed rec workflow format ready) := by
  cases ready with
  | error f =>
    refine (failed_unless rec none hid).mono fun w done w' h => ?_
    refine .inl ⟨fun start hs => (by cases hs),h fun hr => ?_⟩
    rw [hready f rfl] at hr
    cases hr
  | ok start =>
    intro w
    obtain ⟨hle,h⟩ := traverse_unless hid start.graph (outset rec workflow format start) rfl w
    have hproceed : proceed rec workflow format (.ok start) =
        traverse start.graph (outset rec workflow format start) >>=
          conclude rec start.context := rfl
    rw [hproceed,exec_bind]
    rcases ht : (traverse start.graph (outset rec workflow format start)).exec w with
      ⟨e | ⟨⟨visited,outcome⟩,run⟩,w₁⟩ <;> rw [ht] at hle h <;> simp only at hle h ⊢
    -- a walk itself does not fault; what ended it is its outcome
    · exact ⟨hle,fun hl => by
        obtain ⟨_,_,he,-⟩ := h hl
        cases he⟩
    · cases outcome with
      | error f =>
        simp only [conclude]
        obtain ⟨hle',h'⟩ := failed_unless rec (some start.context) (f := f) hid w₁
        refine ⟨Nat.le_trans hle hle',fun hl => .inl ⟨fun start' hs run' w₂ harrives => ?_,?_⟩⟩
        · cases hs
          cases ((arrives_iff ht run' w₂).1 harrives).1
        · refine h' (by omega) fun hr => ?_
          obtain ⟨walked,run',he,hclosed⟩ := h (by omega)
          cases he
          exact hclosed f rfl hr
      | ok _ =>
        simp only [conclude]
        obtain ⟨hle',h'⟩ := finish_unless rec run hid w₁
        refine ⟨Nat.le_trans hle hle',fun hl => ?_⟩
        obtain ⟨hr,ha⟩ | ⟨hr,he⟩ := h' (by omega)
        · refine .inl ⟨fun start' hs run' w₂ harrives => ?_,ha⟩
          cases hs
          obtain ⟨-,rfl,rfl⟩ := (arrives_iff ht run' w₂).1 harrives
          exact hr
        · exact .inr ⟨⟨start,rfl,run,w₁,(arrives_iff ht run w₁).2 ⟨rfl,rfl,rfl⟩,hr⟩,he⟩

theorem fail_sameRuns {rec : Recorder} (hrec : rec.record? = none) (context : Option Item)
    (f : Fault) : Keeps World.SameRuns (fail rec context f) := by
  have looked : Keeps World.SameRuns (context.mapM Work.read) := by
    cases context with
    | none => exact Keeps.closed.pure _
    | some i =>
      rw [Option.mapM_some]
      exact Keeps.closed.map (AppendOnly.read i).unlogged.sameRuns _
  unfold fail
  split
  · exact Keeps.closed.pure _
  · refine (forLog_sameRuns looked).bind fun c => ?_
    exact (rec.change_sameRuns hrec _ _).bind fun _ => Keeps.closed.pure _

theorem finish_sameRuns {rec : Recorder} (hrec : rec.record? = none) (run : Run) :
    Keeps World.SameRuns (finish rec run) := by
  refine (unlogged_edit _).sameRuns.bind fun context => ?_
  refine (forLog_sameRuns (AppendOnly.read context).unlogged.sameRuns).bind fun v => ?_
  refine (rec.change_sameRuns hrec _ _).bind fun _ =>
    Keeps.bind (fun w => ?_) fun _ => Keeps.closed.pure _
  rcases filedName_cases run context w with ⟨-,name,hn⟩ | ⟨-,f,hn,-⟩ <;> rw [hn] <;>
    exact refl_of World.SameRuns w

theorem proceed_sameRuns {rec : Recorder} (hrec : rec.record? = none) (workflow : Int)
    (format : String) (ready : Except Fault Ready) :
    Keeps World.SameRuns (proceed rec workflow format ready) := by
  unfold proceed
  split
  · exact (fail_sameRuns hrec _ _).bind fun _ => .throw _
  · rename_i start
    have walked : Keeps World.SameRuns
        (traverse start.graph (outset rec workflow format start)) := fun w =>
      (Visit.walk_unrecorded start.graph 100 ⟨w,outset rec workflow format start⟩ hrec).2
    refine walked.bind fun p => ?_
    obtain ⟨⟨visited,outcome⟩,run⟩ := p
    simp only
    split
    · exact (fail_sameRuns hrec _ _).bind fun _ => .throw _
    · exact finish_sameRuns hrec _

/-- While the record of a run says that the run is under way, nothing says that it ended. -/
theorem under_way {id : Int} {row : ExecutionLog} {w : World}
    (hrow : w.db.executionLogs.get? id = some row) (hs : row.status = "running")
    (done : Except Fault Report) : ¬ RowAgrees id done w ∧ ¬ Escapes id done w := by
  refine ⟨?_,?_⟩
  · rintro ⟨row',hrow',h⟩
    cases hrow.symm.trans hrow'
    rcases h with ⟨_,_,-,-,h,-⟩ | ⟨_,_,_,_,_,-,h,-⟩ <;> simp [hs] at h
  · rintro ⟨-,row',hrow',h⟩
    cases hrow.symm.trans hrow'
    simp [hs] at h

theorem proceed_lost_le (rec : Recorder) (workflow : Int) (format : String)
    {ready : Except Fault Ready} (hready : ReportsNoRun ready) (w : World) :
    w.lost ≤ ((proceed rec workflow format ready).exec w).2.lost := by
  cases hrec : rec.record? with
  | none => exact (proceed_sameRuns hrec workflow format ready w).lost_le
  | some id => exact (proceed_unless rec workflow format hready hrec w).1

theorem proceed_log (rec : Recorder) (workflow : Int) (format : String) {ready : Except Fault Ready}
    (hready : ReportsNoRun ready) {w : World} {id : Int} {row : ExecutionLog} (hlog : rec.log = some id)
    (hrow : w.db.executionLogs.get? id = some row) (hs : row.status = "running")
    (hlost : ((proceed rec workflow format ready).exec w).2.lost = w.lost) :
    (RowAgrees id ((proceed rec workflow format ready).exec w).1
        ((proceed rec workflow format ready).exec w).2 ↔
      id ≠ 0 ∧ ∀ start, ready = .ok start →
        ∀ run w₁, Arrives rec workflow format start w run w₁ → Reportable run w₁) ∧
    (Escapes id ((proceed rec workflow format ready).exec w).1
        ((proceed rec workflow format ready).exec w).2 ↔
      id ≠ 0 ∧ ∃ start, ready = .ok start ∧
        ∃ run w₁, Arrives rec workflow format start w run w₁ ∧ ¬ Reportable run w₁) := by
  by_cases hz : id = 0
  · have hrec : rec.record? = none := by simp [Recorder.record?,hlog,hz]
    rw [← (proceed_sameRuns hrec workflow format ready w).logs] at hrow
    obtain ⟨ha,he⟩ := under_way hrow hs ((proceed rec workflow format ready).exec w).1
    exact ⟨⟨fun h => absurd h ha,fun h => absurd hz h.1⟩,fun h => absurd h he,fun h => absurd hz h.1⟩
  · have hrec := Recorder.record?_of_log hlog hz
    obtain ⟨hall,ha⟩ | ⟨⟨start,hs,run,w₁,harrives,hn⟩,he⟩ :=
      (proceed_unless rec workflow format hready hrec w).2 hlost
    · refine ⟨⟨fun _ => ⟨hz,hall⟩,fun _ => ha⟩,fun he => absurd ha he.not_rowAgrees,?_⟩
      rintro ⟨-,start,hs,run,w₁,harrives,hn⟩
      exact absurd (hall start hs run w₁ harrives) hn
    · refine ⟨⟨fun ha => absurd ha he.not_rowAgrees,fun h => ?_⟩,?_,fun _ => he⟩
      · exact absurd (h.2 start hs run w₁ harrives) hn
      · exact fun _ => ⟨hz,start,hs,run,w₁,harrives,hn⟩

/-- A run of a request comes to the end of its walk by itself and leaves the walked run in a
world. -/
def Comes (mode : Mode) (r : Request) (workflow : Int) (w : World) (run : Run) (w' : World) : Prop :=
  ∃ kind rec start w₁ w₂, (opening mode workflow r).exec w = (.ok (kind,rec),w₁) ∧
    (prepare mode workflow r kind (formatOf mode r kind)).exec w₁ = (.ok start,w₂) ∧
    Arrives rec workflow (formatOf mode r kind) start w₂ run w'

theorem unopened {w w' : World} (h : w.SameRuns w') (done : Except Fault Report) :
    ¬ RowAgrees w.db.executionLogs.nextId done w' ∧ ¬ Escapes w.db.executionLogs.nextId done w' := by
  have hnone : w'.db.executionLogs.get? w.db.executionLogs.nextId = none := by
    rw [h.logs]
    exact List.find?_eq_none.2 fun row hrow => by simpa using Table.ne_nextId _ row hrow
  refine ⟨?_,?_⟩
  · rintro ⟨row,hrow,-⟩
    cases hnone.symm.trans hrow
  · rintro ⟨-,row,hrow,-⟩
    cases hnone.symm.trans hrow

theorem comes_iff {mode : Mode} {r : Request} {workflow : Int} {w w₁ w₂ : World}
    {kind : Option DocumentKind} {rec : Recorder} {ready : Except Fault Ready}
    (hop : (opening mode workflow r).exec w = (.ok (kind,rec),w₁))
    (hprep : (prepare mode workflow r kind (formatOf mode r kind)).exec w₁ = (ready,w₂))
    (run : Run) (w' : World) : Comes mode r workflow w run w' ↔
      ∃ start, ready = .ok start ∧
        Arrives rec workflow (formatOf mode r kind) start w₂ run w' := by
  constructor
  · rintro ⟨kind',rec',start,w₁',w₂',hop',hprep',harrives⟩
    cases hop.symm.trans hop'
    cases hprep.symm.trans hprep'
    exact ⟨start,rfl,harrives⟩
  · rintro ⟨start,rfl,harrives⟩
    exact ⟨kind,rec,start,w₁,w₂,hop,hprep,harrives⟩

theorem prepared {mode : Mode} {r : Request} {workflow : Int} {w₁ w₂ : World}
    {kind : Option DocumentKind} {format : String} {ready : Except Fault Ready}
    (hprep : (prepare mode workflow r kind format).exec w₁ = (ready,w₂)) :
    ReportsNoRun ready ∧ w₂.lost = w₁.lost ∧ w₂.db.executionLogs = w₁.db.executionLogs := by
  obtain ⟨hlogs,hnever⟩ := prepare_unreported mode workflow r kind format
  have hlogs := hlogs.unlogged.logs w₁
  have hnever := hnever w₁
  rw [hprep] at hlogs hnever
  refine ⟨fun f hf => by simpa using hnever f hf,?_,?_⟩
  · exact congrArg World.Logs.lost hlogs
  · exact congrArg World.Logs.executionLogs hlogs

/-- The record of a run none of whose log writes is lost agrees with what the run gives back, just
where the run is recorded under a number other than zero and its report can be made. Where only the
report cannot be made, the run fails behind a record that says completed. -/
theorem run_log (mode : Mode) {r : Request} {workflow : Int} (hr : r.workflow = some workflow)
    (w : World) (hlost : ((run mode r).exec w).2.lost = w.lost) :
    (RowAgrees w.db.executionLogs.nextId ((run mode r).exec w).1 ((run mode r).exec w).2 ↔
      CanLookUpKind r w.db ∧ Keepable r ∧ w.db.executionLogs.nextId ≠ 0 ∧
        ∀ run w', Comes mode r workflow w run w' → Reportable run w') ∧
    (Escapes w.db.executionLogs.nextId ((run mode r).exec w).1 ((run mode r).exec w).2 ↔
      CanLookUpKind r w.db ∧ Keepable r ∧ w.db.executionLogs.nextId ≠ 0 ∧
        ∃ run w', Comes mode r workflow w run w' ∧ ¬ Reportable run w') := by
  obtain ⟨hle,ho⟩ := opening_unless mode workflow r w
  rw [run_eq mode hr,exec_bind] at hlost ⊢
  rcases hop : (opening mode workflow r).exec w with ⟨f | ⟨kind,rec⟩,w₁⟩ <;>
    rw [hop] at hle ho hlost <;> simp only at hle ho hlost ⊢
  -- a run that was not opened neither agrees with a record nor escapes one
  · obtain ⟨-,-,kind,rec,he,-⟩ | ⟨hn,-,hs⟩ := ho hlost
    · cases he
    · obtain ⟨ha,he⟩ := unopened hs (.error f)
      exact ⟨⟨fun h => absurd h ha,fun h => absurd ⟨h.1,h.2.1⟩ hn⟩,
        fun h => absurd h he,fun h => absurd ⟨h.1,h.2.1⟩ hn⟩
  · rcases hprep : (prepare mode workflow r kind (formatOf mode r kind)).exec w₁ with ⟨ready,w₂⟩
    obtain ⟨hready,hlost₂,hruns⟩ := prepared hprep
    have hrest : (attempt (prepare mode workflow r kind (formatOf mode r kind)) >>=
        proceed rec workflow (formatOf mode r kind)).exec w₁ =
          (proceed rec workflow (formatOf mode r kind) ready).exec w₂ := by
      unfold attempt
      rw [exec_bind,exec_caught,hprep]
    rw [hrest] at hlost ⊢
    have hle₂ := proceed_lost_le rec workflow (formatOf mode r kind) hready w₂
    obtain ⟨ha,hk,kind',rec',he,hlog,row,hrow,hs⟩ | ⟨-,⟨f,hf⟩,-⟩ := ho (by omega)
    · cases he
      rw [← hruns] at hrow
      obtain ⟨hagrees,hescapes⟩ :=
        proceed_log rec workflow (formatOf mode r kind) hready hlog hrow hs (by omega)
      refine ⟨hagrees.trans ⟨fun ⟨hz,h⟩ => ⟨ha,hk,hz,fun run w' hc => ?_⟩,fun ⟨_,_,hz,h⟩ => ⟨hz,?_⟩⟩,
        hescapes.trans ⟨fun ⟨hz,start,hs,run,w',hc,hn⟩ => ⟨ha,hk,hz,run,w',?_,hn⟩,
          fun ⟨_,_,hz,run,w',hc,hn⟩ => ?_⟩⟩
      · obtain ⟨start,hs,harrives⟩ := (comes_iff hop hprep run w').1 hc
        exact h start hs run w' harrives
      · exact fun start hs run w' hc => h run w' ((comes_iff hop hprep run w').2 ⟨start,hs,hc⟩)
      · exact (comes_iff hop hprep run w').2 ⟨start,hs,hc⟩
      · obtain ⟨start,hs,harrives⟩ := (comes_iff hop hprep run w').1 hc
        exact ⟨hz,start,hs,run,w',harrives,hn⟩
    · cases hf

def numbered : Request := { workflow := some 1, context := some [("actualFilename",.int 5)] }

def bare : World where
  db :=
    { nodes := { rows := [{ id := "s", workflow := 1, nodeType := "start", createdAt := default }] } }

/-- The numbered request fails behind a record that says completed. -/
theorem run_log_numbered :
    numbered.workflow = some 1 ∧
      ((run .extraction numbered).exec bare).2.lost = bare.lost ∧
      ¬ RowAgrees 1 ((run .extraction numbered).exec bare).1
        ((run .extraction numbered).exec bare).2 ∧
      ∃ run w', Comes .extraction numbered 1 bare run w' ∧ ¬ Reportable run w' := by
  have hlost : ((run .extraction numbered).exec bare).2.lost = bare.lost := by decide +kernel
  have hfails : ∃ f, ((run .extraction numbered).exec bare).1 = .error f ∧ f.reports = false := by
    have told : (match ((run .extraction numbered).exec bare).1 with
      | .ok _ => true
      | .error f => f.reports) = false := by decide +kernel
    cases hd : ((run .extraction numbered).exec bare).1 with
    | ok report =>
      rw [hd] at told
      cases told
    | error f =>
      rw [hd] at told
      exact ⟨f,rfl,told⟩
  have hrow : (((run .extraction numbered).exec bare).2.db.executionLogs.get? 1).map
      ExecutionLog.status = some "completed" := by decide +kernel
  obtain ⟨row,hrow,hstatus⟩ := Option.map_eq_some_iff.1 hrow
  have escapes : Escapes 1 ((run .extraction numbered).exec bare).1
      ((run .extraction numbered).exec bare).2 := ⟨hfails,row,hrow,hstatus⟩
  exact ⟨rfl,hlost,escapes.not_rowAgrees,((run_log .extraction rfl bare hlost).2.1 escapes).2.2.2⟩

end StepGraph.Launch
