import StepGraph.Proofs.VisitLog

/-!
The audit trail of whole visits. Each visit adds a group of records of its own node: one that says
skipped, or completed ones, or on a failure some phases and a last one that says failed. While a
visit lasts, the record of the run names its node.
-/
namespace StepGraph.Visit

open Attempt Trip

def NamesNode (id : Int) (n : Step Item) (t : Trip) : Prop :=
  ∃ row, t.row? id = some row ∧ row.node = some n.id

/-- Where a visit can be looked at between its parts. -/
inductive Boundary (n : Step Item) (t : Trip) : Trip → Prop
  | begun : Boundary n t ((noteProgress n).exec t).2
  | opened : Boundary n t ((opening n).exec t).2
  | performed (t₁ : Trip) (h : (opening n).exec t = (.ok none,t₁)) :
      Boundary n t ((perform n).exec t₁).2
  | ended : Boundary n t ((step n).exec t).2

/-- How a step that is not passed over ends, and the records that it adds. -/
inductive EndRecorded (id : Int) (n : Step Item) : Except Fault String → Trip → List StepLog → Prop
  | completed (handle : String) (t' : Trip) (rows : List StepLog)
      (own : ∀ row ∈ rows, row.node = n.id) (status : ∀ row ∈ rows, row.status = "completed") :
      EndRecorded id n (.ok handle) t' rows
  /-- The record of the run and the last record of a step say what went wrong. -/
  | failed (f : Fault) (extractionLog : Option Int) (t' : Trip) (phases : List StepLog)
      (last : StepLog) (whole : ExecutionLog) (own : ∀ row ∈ phases ++ [last], row.node = n.id)
      (status : ∀ row ∈ phases, row.status = "completed" ∨ row.status = "failed")
      (lastStatus : last.status = "failed") (lastError : last.error = some f.message)
      (row : t'.row? id = some whole) (rowStatus : whole.status = "failed")
      (rowError : whole.error = some f.message) :
      EndRecorded id n (.error (.run f.message (some id) extractionLog (some n.id) (some n.label)
        (some f))) t' (phases ++ [last])

/-- What a stop of a run adds to the audit trail. -/
inductive Account (id : Int) (st : Stop Trip Item) : List StepLog → Prop
  | marker (m : Start) (node : st.node = .start m) (passed : st.Passed) : Account id st []
  /-- There was a reason to pass over the step. -/
  | skipped (n : Step Item) (reason : String) (t : Trip) (row : StepLog) (node : st.node = .step n)
      (opened : (opening n).exec st.before = (.ok (some reason),t)) (passed : st.Passed)
      (own : row.node = n.id) (status : row.status = "skipped") : Account id st [row]
  /-- The step was performed, or failed. -/
  | settled (n : Step Item) (t : Trip) (rows : List StepLog) (node : st.node = .step n)
      (opened : (opening n).exec st.before = (.ok none,t))
      (settled : EndRecorded id n st.exit st.after rows) : Account id st rows
  /-- It could not be settled whether to pass over the step. -/
  | disturbed (n : Step Item) (f : Fault) (t : Trip) (node : st.node = .step n)
      (opened : (opening n).exec st.before = (.error f,t)) (exit : st.exit = .error f)
      (untroubled : f.isWorkflowTrouble = false) : Account id st []

def Opened (n : Step Item) (t : Trip) (r : Except Fault (Option String)) (t₁ : Trip) : Prop :=
  ∀ id, t.log? = some id → OnlyDataFault r ∧ ∃ v now, t.world.store.read t.run.context = .ok v ∧
    Rewrites id (fun row => { row with
      node := some n.id, nodeLabel := some n.label, context := v.plain, updatedAt := now }) t t₁

theorem opening_unless (n : Step Item) : Unless lost (Opened n) (opening n) := by
  apply ((noteProgress_unless n).bind fun _ => verdict_unless n).mono
  rintro t r t' (⟨e,h,-⟩ | ⟨x,t₁,h,rfl,hc⟩) id hid
  · cases (h id hid).1
  · exact ⟨hc,(h id hid).2⟩

/-- What performing a step leaves in the audit trail: phases of the node, failed ones only when the
step fails. -/
def Worked (n : Step Item) (t : Trip) (r : Except Fault Outcome) (t' : Trip) : Prop :=
  t'.run.recorder = t.run.recorder ∧
  t'.world.db.executionLogs = t.world.db.executionLogs ∧
  ∃ added, t'.world.db.stepLogs.rows = t.world.db.stepLogs.rows ++ added ∧
    ∀ row ∈ added, row.node = n.id ∧ Steps.Permits r row.status

theorem perform_unless (n : Step Item) : Unless lost (Worked n) (perform n) := by
  intro t
  cases hk : n.kind? with
  | none =>
    unfold perform
    rw [hk]
    exact ⟨Nat.le_refl _,fun _ => ⟨rfl,rfl,[],(List.append_nil _).symm,by simp⟩⟩
  | some k =>
    obtain ⟨⟨added,ha,hp⟩,he,hl⟩ := (Steps.perform_contextLast t.run hk).journals t.world
    rw [perform_known hk]
    rcases hd : (k.perform t.run n).exec t.world with ⟨f | o,w⟩ <;> rw [hd] at ha he hl hp
    · exact ⟨hl,fun _ => ⟨rfl,he,added,ha,hp⟩⟩
    · refine ⟨hl,fun _ => ⟨?_,he,added,ha,?_⟩⟩
      · simp only
        split <;> rfl
      · exact fun row hrow => ⟨(hp row hrow).1,(hp row hrow).2.imp_right fun h => by
          obtain ⟨-,f,hf⟩ := h
          cases hf⟩

theorem NamesNode.of_logs {id : Int} {n : Step Item} {t t' : Trip} (h : NamesNode id n t)
    (he : t'.world.db.executionLogs = t.world.db.executionLogs) : NamesNode id n t' := by
  obtain ⟨row,hrow,hn⟩ := h
  refine ⟨row,?_,hn⟩
  unfold Trip.row?
  rw [he]
  exact hrow

theorem NamesNode.of_rewrites {id : Int} {n : Step Item} {f : ExecutionLog → ExecutionLog}
    {t t' : Trip} (h : NamesNode id n t) (hr : Rewrites id f t t')
    (hf : ∀ row, (f row).node = row.node) : NamesNode id n t' := by
  obtain ⟨row,hrow,hn⟩ := h
  obtain ⟨old,hold,hnew⟩ := hr.row
  obtain rfl : row = old := Option.some.inj (hrow.symm.trans hold)
  exact ⟨f row,hnew,(hf row).trans hn⟩

theorem begun_eq_opened (n : Step Item) (t : Trip) :
    ((noteProgress n).exec t).2 = ((opening n).exec t).2 := by
  unfold opening
  rw [exec_bind]
  rcases (noteProgress n).exec t with ⟨f | x,t₁⟩
  · rfl
  · exact (verdict_exec n t₁).1.symm

theorem failed_unless (n : Step Item) (f : Fault) :
    Unless lost (fun t r t' => ∀ id, t.log? = some id → Failed n f id t (.ok ()) t' ∧
      ∃ extractionLog, r = .error (.run f.message (some id) extractionLog (some n.id)
        (some n.label) (some f))) (failed n f) := by
  let report (t : Trip) : Fault :=
    .run f.message (t.run.recorder.bind Recorder.log) (t.run.recorder.bind Recorder.extractionLog)
      (some n.id) (some n.label) (some f)
  have ended : Unless lost (fun t r t' => t' = t ∧ r = .error (report t))
      (failure n f >>= throw : Visit String) := fun t => ⟨Nat.le_refl _,fun _ => ⟨rfl,rfl⟩⟩
  apply ((recordFailure_unless n f).bind fun _ => ended).mono
  rintro t r t' (⟨e,he,-⟩ | ⟨x,t₁,h,rfl,rfl⟩) id hid
  · cases (he id hid).1
  · obtain ⟨-,row,t₂,hadd,hnode,hstatus,herror,v,now,now',hv,hr⟩ := h id hid
    have hrun : t'.run = t.run := hr.run.trans hadd.run
    refine ⟨⟨rfl,row,t₂,hadd,hnode,hstatus,herror,v,now,now',hv,hr⟩,
      t'.run.recorder.bind Recorder.extractionLog,?_⟩
    unfold report
    rw [log_of_log? (by rw [Trip.log?,hrun]; exact hid)]

def Extends (rows : List StepLog) (t t' : Trip) : Prop :=
  t'.world.db.stepLogs.rows = t.world.db.stepLogs.rows ++ rows

def RecordsEnd (n : Step Item) (t : Trip) (r : Except Fault String) (t' : Trip) : Prop :=
  ∀ id, t.log? = some id → t'.log? = some id ∧
    (∃ rows, Extends rows t t' ∧ EndRecorded id n r t' rows) ∧
    (NamesNode id n t → NamesNode id n ((perform n).exec t).2 ∧ NamesNode id n t')

theorem Worked.log? {n : Step Item} {t t' : Trip} {r : Except Fault Outcome}
    (h : Worked n t r t') : t'.log? = t.log? := by
  unfold Trip.log?
  rw [h.1]

theorem Worked.fail {n : Step Item} {f : Fault} {id : Int} {t t₁ t' : Trip}
    (hw : Worked n t (.error f) t₁) (hf : Failed n f id t₁ (.ok ()) t')
    (extractionLog : Option Int) :
    t'.log? = t.log? ∧ (∃ rows, Extends rows t t' ∧
      EndRecorded id n (.error (.run f.message (some id) extractionLog (some n.id) (some n.label)
        (some f))) t' rows) ∧
    (NamesNode id n t → NamesNode id n t₁ ∧ NamesNode id n t') := by
  have hlog := hw.log?
  obtain ⟨-,hlogs,added,hadd,hown⟩ := hw
  obtain ⟨-,row,t₂,ha,hnode,hstatus,herror,v,now,now',-,hr⟩ := hf
  obtain ⟨old,hold,hnew⟩ := hr.row
  refine ⟨?_,⟨added ++ [row],?_,?_⟩,fun hn => ?_⟩
  · rw [← hlog,← ha.log?]
    unfold Trip.log?
    rw [hr.run]
  · unfold Extends
    rw [hr.steps,ha.steps,hadd,List.append_assoc]
  · refine .failed f extractionLog t' added row _ ?_ ?_ hstatus herror hnew rfl rfl
    · intro x hx
      rcases List.mem_append.1 hx with hx | hx
      · exact (hown x hx).1
      · rw [List.mem_singleton.1 hx]
        exact hnode
    · exact fun x hx => (hown x hx).2.imp_right And.left
  · have hn₁ := hn.of_logs hlogs
    exact ⟨hn₁,(hn₁.of_logs ha.executionLogs).of_rewrites hr fun _ => rfl⟩

theorem Worked.complete {n : Step Item} {o : Outcome} {t t₁ t' : Trip} (id : Int)
    (hw : Worked n t (.ok o) t₁)
    (hd : Adds [] t₁ t' ∨ Entered n "completed" none t₁ (.ok ()) t') (handle : String) :
    t'.log? = t.log? ∧ (∃ rows, Extends rows t t' ∧ EndRecorded id n (.ok handle) t' rows) ∧
    (NamesNode id n t → NamesNode id n t₁ ∧ NamesNode id n t') := by
  have hlog := hw.log?
  obtain ⟨-,hlogs,added,hadd,hown⟩ := hw
  have completed : ∀ row ∈ added, row.node = n.id ∧ row.status = "completed" := by
    intro row hrow
    obtain ⟨hnode,hs | ⟨-,f,hf⟩⟩ := hown row hrow
    · exact ⟨hnode,hs⟩
    · cases hf
  obtain ⟨more,ha,hmore⟩ : ∃ more, Adds more t₁ t' ∧
      ∀ row ∈ more, row.node = n.id ∧ row.status = "completed" := by
    rcases hd with ha | ⟨-,row,ha,hnode,hs,-⟩
    · exact ⟨[],ha,by simp⟩
    · exact ⟨[row],ha,by simp [hnode,hs]⟩
  have all : ∀ row ∈ added ++ more, row.node = n.id ∧ row.status = "completed" := fun row hrow =>
    (List.mem_append.1 hrow).elim (completed row) (hmore row)
  refine ⟨ha.log?.trans hlog,⟨added ++ more,?_,?_⟩,fun hn => ?_⟩
  · unfold Extends
    rw [ha.steps,hadd,List.append_assoc]
  · exact .completed handle t' _ (fun row hrow => (all row hrow).1) fun row hrow => (all row hrow).2
  · exact ⟨hn.of_logs hlogs,(hn.of_logs hlogs).of_logs ha.executionLogs⟩

theorem settle_unless (n : Step Item) : Unless lost (RecordsEnd n) (settle n) := by
  intro t
  obtain ⟨hle,hw⟩ := perform_unless n t
  unfold settle
  unfold RecordsEnd
  rw [exec_bind,exec_caught]
  rcases hp : (perform n).exec t with ⟨f | o,t₁⟩ <;> rw [hp] at hle hw <;> simp only at hle hw ⊢
  · obtain ⟨hle',hf⟩ := failed_unless n f t₁
    refine ⟨Nat.le_trans hle hle',fun hl id hid => ?_⟩
    have hw := hw (by omega)
    obtain ⟨hf,x,hx⟩ := hf (by omega) id (hw.log?.trans hid)
    rw [hx]
    obtain ⟨hlog,hrows,hnames⟩ := hw.fail hf x
    exact ⟨hlog.trans hid,hrows,hnames⟩
  · obtain ⟨hle',hd⟩ := performed_unless n o t₁
    refine ⟨Nat.le_trans hle hle',fun hl id hid => ?_⟩
    have hw := hw (by omega)
    obtain ⟨⟨handle,hh⟩,hd⟩ := hd (by omega) id (hw.log?.trans hid)
    rw [hh]
    obtain ⟨hlog,hrows,hnames⟩ := hw.complete id (hd.imp And.right And.right) handle
    exact ⟨hlog.trans hid,hrows,hnames⟩

def Visits (n : Step Item) (t : Trip) (r : Except Fault String) (t' : Trip) : Prop :=
  ∀ id, t.log? = some id → t'.log? = some id ∧
    (∀ target, ∃ rows, Extends rows t t' ∧ Account id ⟨target,.step n,t,t',r⟩ rows) ∧
    ∀ u, Boundary n t u → NamesNode id n u

theorem Opened.names {n : Step Item} {t t₁ : Trip} {r : Except Fault (Option String)} {id : Int}
    (h : Opened n t r t₁) (hid : t.log? = some id) :
    t₁.log? = some id ∧ Extends [] t t₁ ∧ NamesNode id n t₁ := by
  obtain ⟨-,v,now,-,hr⟩ := h id hid
  obtain ⟨old,-,hnew⟩ := hr.row
  refine ⟨?_,?_,_,hnew,rfl⟩
  · unfold Trip.log?
    rw [hr.run]
    exact hid
  · unfold Extends
    rw [hr.steps,List.append_nil]

/-- A visit names its node all the time if it does so behind each of its parts. -/
theorem namesNode_of_parts {id : Int} {n : Step Item} {t t₁ t' : Trip}
    {v : Except Fault (Option String)} {r : Except Fault String}
    (ho : (opening n).exec t = (v,t₁)) (hs : (step n).exec t = (r,t')) (h₁ : NamesNode id n t₁)
    (hp : v = .ok none → NamesNode id n ((perform n).exec t₁).2) (h' : NamesNode id n t') :
    ∀ u, Boundary n t u → NamesNode id n u := by
  intro u hu
  cases hu with
  | begun =>
    rw [begun_eq_opened,ho]
    exact h₁
  | opened =>
    rw [ho]
    exact h₁
  | performed t₂ h =>
    obtain ⟨rfl,rfl⟩ := Prod.mk.inj (ho.symm.trans h)
    exact hp rfl
  | ended =>
    rw [hs]
    exact h'

theorem step_unless (n : Step Item) : Unless lost (Visits n) (step n) := by
  intro t
  obtain ⟨hle,ho⟩ := opening_unless n t
  rcases hs : (step n).exec t with ⟨r,t'⟩
  have hparts := hs
  rw [step_eq,exec_bind] at hparts
  rcases hop : (opening n).exec t with ⟨f | _ | reason,t₁⟩ <;> rw [hop] at hle ho hparts <;>
    simp only at hle ho hparts ⊢
  · cases hparts
    refine ⟨hle,fun hl id hid => ?_⟩
    obtain ⟨hlog,hrows,hn⟩ := (ho hl).names hid
    have untroubled := Fault.untroubled_of_isDataFault ((ho hl id hid).1 f rfl)
    exact ⟨hlog,fun target => ⟨[],hrows,.disturbed n f _ rfl hop rfl untroubled⟩,
      namesNode_of_parts hop hs hn (fun h => by cases h) hn⟩
  · obtain ⟨hle',hset⟩ := settle_unless n t₁
    rw [hparts] at hle' hset
    refine ⟨Nat.le_trans hle hle',fun hl id hid => ?_⟩
    simp only at hle' hset
    obtain ⟨hlog,hrows,hn⟩ := (ho (by omega)).names hid
    obtain ⟨hlog',⟨rows,hrows',hsettled⟩,hnames⟩ := hset (by omega) id hlog
    refine ⟨hlog',fun target => ⟨rows,?_,.settled n t₁ rows rfl hop hsettled⟩,
      namesNode_of_parts hop hs hn (fun _ => (hnames hn).1) (hnames hn).2⟩
    unfold Extends at hrows hrows' ⊢
    rw [hrows',hrows,List.append_nil]
  · obtain ⟨hle',hskip⟩ := skip_unless n reason t₁
    rw [hparts] at hle' hskip
    refine ⟨Nat.le_trans hle hle',fun hl id hid => ?_⟩
    simp only at hle' hskip
    obtain ⟨hlog,hrows,hn⟩ := (ho (by omega)).names hid
    obtain ⟨rfl,-,row,hadd,hnode,hstatus,-⟩ := hskip (by omega) id hlog
    have hn' := hn.of_logs hadd.executionLogs
    refine ⟨hadd.log?.trans hlog,fun target => ⟨[row],?_,
      .skipped n reason t₁ row rfl hop ⟨_,rfl⟩ hnode hstatus⟩,
      namesNode_of_parts hop hs hn (fun h => by cases h) hn'⟩
    unfold Extends at hrows ⊢
    rw [hadd.steps,hrows,List.append_nil]

end StepGraph.Visit
