import StepGraph.Proofs.VisitHeap

/-!
What a visit leaves in the audit trail when none of its writes is lost: which records it adds, and
how it changes the record of the run.
-/
namespace StepGraph

open Attempt

namespace Trip

def log? (t : Trip) : Option Int := t.run.recorder.bind Recorder.record?

def lost (t : Trip) : Nat := t.world.lost

def row? (t : Trip) (id : Int) : Option ExecutionLog := t.world.db.executionLogs.get? id

theorem log_of_log? {t : Trip} {id : Int} (h : t.log? = some id) :
    t.run.recorder.bind Recorder.log = some id := by
  unfold Trip.log? at h
  cases hr : t.run.recorder with
  | none =>
    rw [hr] at h
    cases h
  | some r =>
    rw [hr] at h
    exact (Option.filter_eq_some_iff.1 h).1

/-- Records of steps were added and nothing else of the audit trail changed. -/
structure Adds (added : List StepLog) (t t' : Trip) : Prop where
  run : t'.run = t.run
  grows : t.world.store.Grows t'.world.store
  steps : t'.world.db.stepLogs.rows = t.world.db.stepLogs.rows ++ added
  executionLogs : t'.world.db.executionLogs = t.world.db.executionLogs

theorem Adds.refl (t : Trip) : Adds [] t t :=
  ⟨rfl,refl_of Store.Grows t.world.store,(List.append_nil _).symm,rfl⟩

theorem Adds.trans {a b : List StepLog} {t t' t'' : Trip} (h : Adds a t t') (h' : Adds b t' t'') :
    Adds (a ++ b) t t'' where
  run := h'.run.trans h.run
  grows := trans_of Store.Grows h.grows h'.grows
  steps := by rw [h'.steps,h.steps,List.append_assoc]
  executionLogs := h'.executionLogs.trans h.executionLogs

theorem Adds.log? {a : List StepLog} {t t' : Trip} (h : Adds a t t') : t'.log? = t.log? := by
  unfold Trip.log?
  rw [h.run]

end Trip

namespace Visit

variable {α : Type}

open Trip

theorem alloc_unless {f : Store → Store × α} (hf : ∀ s : Store, s.Grows (f s).1) :
    Unless lost (fun t r t' => ∃ x, r = .ok x ∧ Adds [] t t') (work (Work.edit (Edit.run' f))) :=
  fun t => ⟨Nat.le_refl _,fun _ => ⟨_,rfl,rfl,hf t.world.store,(List.append_nil _).symm,rfl⟩⟩

theorem newObject_unless (es : Entries Item) :
    Unless lost (fun t r t' => ∃ x, r = .ok x ∧ Adds [] t t') (work (Work.newObject es)) :=
  alloc_unless fun s => s.alloc_grows _

theorem plant_unless (v : Value) :
    Unless lost (fun t r t' => ∃ x, r = .ok x ∧ Adds [] t t') (work (Work.plant v)) :=
  alloc_unless fun s => s.plant_grows v

theorem work_unless {p : Work α} {Q : World → Except Fault α → World → Prop}
    (hp : Unless World.lost Q p) :
    Unless lost (fun t r t' => t'.run = t.run ∧ Q t.world r t'.world) (work p) :=
  fun t => ⟨(hp t.world).1,fun hl => ⟨rfl,(hp t.world).2 hl⟩⟩

theorem forLog_unless {p : Work α} {r : World → Except Fault α} (hp : ∀ w, p.exec w = (r w,w)) :
    Unless lost (fun t r' t' => ∃ x, r t.world = .ok x ∧ r' = .ok x ∧ t' = t)
      (work (Work.forLog p)) := by
  apply (work_unless (Work.forLog_unless hp)).mono
  rintro t r' t' ⟨hrun,x,hx,hr,hw⟩
  refine ⟨x,hx,hr,?_⟩
  cases t'
  cases hrun
  cases hw
  rfl

theorem snapshot_unless : Unless lost
    (fun t r t' => ∃ v, t.world.store.read t.run.context = .ok v ∧ r = .ok v ∧ t' = t) snapshot := by
  intro t
  unfold snapshot
  rw [exec_bind_ok (exec_current t)]
  exact forLog_unless (fun _ => rfl) t

theorem summary_unless (n : Step Item) :
    Unless lost (fun t r t' => ∃ x, r = .ok x ∧ t' = t) (summary n) := by
  intro t
  have nothing : t.lost ≤ t.lost ∧ (t.lost = t.lost → ∃ x : Option String,
      (Except.ok none : Except Fault (Option String)) = .ok x ∧ t = t) :=
    ⟨Nat.le_refl _,fun _ => ⟨none,rfl,rfl⟩⟩
  unfold summary
  split
  · exact nothing
  · exact nothing
  · rename_i text _ _
    have hs : (work t.run.scope).exec t =
      (.ok (Scope.ofItem t.world.store t.run.context).written,t) := rfl
    obtain ⟨hle,h⟩ := forLog_unless (p := Work.of (Template.resolveSummary
      (Scope.ofItem t.world.store t.run.context).written text)) (fun _ => rfl) t
    rw [exec_bind_ok (exec_current t),exec_bind_ok hs,exec_map]
    refine ⟨hle,fun hl => ?_⟩
    obtain ⟨x,-,hx,ht⟩ := h hl
    rw [hx]
    exact ⟨some x,rfl,ht⟩

def Entered (n : Step Item) (status : String) (error : Option String) (t : Trip)
    (r : Except Fault Unit) (t' : Trip) : Prop :=
  r = .ok () ∧ ∃ row : StepLog, Adds [row] t t' ∧ row.node = n.id ∧ row.status = status ∧
    row.error = error

theorem add_unless (rec : Recorder) (n : Step Item) (e : Time.Moment → LogEntry) {status : String}
    {error : Option String} (hs : ∀ now, (e now).status = status ∧ (e now).error = error) :
    Unless lost (fun t r t' => ∀ id, rec.record? = some id → Entered n status error t r t')
      (work (Work.moment >>= fun now => discard <| rec.add (.step n) (e now))) := by
  intro t
  let now := (Time.Moment.ofEpoch? t.world.now).getD default
  have hm : Work.moment.exec t.world = (.ok now,t.world) := rfl
  rw [exec_work,exec_bind_ok hm,exec_discard]
  rcases rec.add_cases (.step n) (e now) t.world with
    ⟨hn,hw⟩ | ⟨run,x,db,-,hw,row,rfl,-,-,hnode,-,hstatus,herror⟩ | ⟨hw,-⟩
  · rw [hw]
    refine ⟨Nat.le_refl _,fun _ id hid => ?_⟩
    rw [hn] at hid
    cases hid
  · rw [hw]
    refine ⟨Nat.le_refl _,fun _ id hid => ⟨rfl,row,?_,hnode,?_,?_⟩⟩
    · exact ⟨rfl,refl_of Store.Grows t.world.store,rfl,rfl⟩
    · exact hstatus.trans (hs now).1
    · exact herror.trans (hs now).2
  · rw [hw]
    exact ⟨Nat.le_succ _,fun h => absurd h (Nat.succ_ne_self _)⟩

theorem recordVisit_unless (n : Step Item) (status : String) (input output : Item)
    (error : Option String) :
    Unless lost (fun t r t' => ∀ id, t.log? = some id → Entered n status error t r t')
      (recordVisit n status input output error) := by
  intro t
  unfold recordVisit
  rw [exec_bind_ok (exec_current t)]
  cases hr : t.run.recorder with
  | none =>
    refine ⟨Nat.le_refl _,fun _ id hid => ?_⟩
    simp [Trip.log?,hr] at hid
  | some rec =>
    have hlog : t.log? = rec.record? := by simp [Trip.log?,hr]
    let entry (x : Option String) (now : Time.Moment) : LogEntry :=
      { label := n.label, status := status, startedAt := some now, completedAt := some now,
        input := input, output := output, error := error, summary := x }
    obtain ⟨hle,h⟩ := (summary_unless n).bind
      (fun x => add_unless rec n (entry x) fun now => ⟨rfl,rfl⟩) t
    refine ⟨hle,fun hl id hid => ?_⟩
    rw [hlog] at hid
    obtain ⟨e,⟨x,hx,-⟩,-⟩ | ⟨x,t₁,⟨-,-,rfl⟩,ha⟩ := h hl
    · cases hx
    · exact ha id hid

structure Rewrites (id : Int) (f : ExecutionLog → ExecutionLog) (t t' : Trip) : Prop where
  run : t'.run = t.run
  store : t'.world.store = t.world.store
  steps : t'.world.db.stepLogs = t.world.db.stepLogs
  row : ∃ old, t.row? id = some old ∧ t'.row? id = some (f old)

theorem change_unless (context : Value)
    (f : Time.Moment → ExecutionLog → ExecutionLog) (hf : ∀ now row, (f now row).id = row.id) :
    Unless lost (fun t r t' => ∀ id, t.log? = some id → r = .ok () ∧ ∃ now now',
      Rewrites id (fun row => { f now row with context := context.plain, updatedAt := now' }) t t')
      (record fun r => r.change (some context) f) := by
  intro t
  unfold record
  rw [exec_bind_ok (exec_current t)]
  cases hr : t.run.recorder with
  | none =>
    refine ⟨Nat.le_refl _,fun _ id hid => ?_⟩
    simp [Trip.log?,hr] at hid
  | some rec =>
    have hlog : t.log? = rec.record? := by simp [Trip.log?,hr]
    cases hrec : rec.record? with
    | none =>
      simp only [Recorder.change_none hrec]
      refine ⟨Nat.le_refl _,fun _ id hid => ?_⟩
      cases hrec.symm.trans (hlog.symm.trans hid)
    | some id =>
      obtain ⟨hle,h⟩ := work_unless (rec.change_unless (some context) f hf hrec) t
      refine ⟨hle,fun hl id' hid' => ?_⟩
      obtain rfl : id = id' := Option.some.inj (hrec.symm.trans (hlog.symm.trans hid'))
      obtain ⟨hrun,hdone,c,now,now',hc,hw⟩ := h hl
      obtain rfl := Recorder.mapKept_eq hc
      exact ⟨hdone,now,now',hrun,hw.store,hw.steps,hw.row⟩

def Progressed (n : Step Item) (t : Trip) (r : Except Fault Unit) (t' : Trip) : Prop :=
  ∀ id, t.log? = some id → r = .ok () ∧ ∃ v now, t.world.store.read t.run.context = .ok v ∧
    Rewrites id (fun row => { row with
      node := some n.id, nodeLabel := some n.label, context := v.plain, updatedAt := now }) t t'

theorem noteProgress_unless (n : Step Item) : Unless lost (Progressed n) (noteProgress n) := by
  have noted : Unless lost (Progressed n) (snapshot >>= fun context =>
      record fun r => r.progress n.id n.label context) := by
    refine (snapshot_unless.bind fun v => change_unless v
      (fun _ row => { row with node := some n.id, nodeLabel := some n.label })
      fun _ _ => rfl).mono ?_
    rintro t r t' (⟨e,⟨v,-,hv,-⟩,-⟩ | ⟨v,t₁,⟨w,hw,hv,rfl⟩,hc⟩) id hid
    · cases hv
    · cases hv
      obtain ⟨rfl,-,now,hr⟩ := hc id hid
      exact ⟨rfl,v,now,hw,hr⟩
  intro t
  unfold noteProgress
  rw [exec_bind_ok (exec_current t)]
  split
  · exact noted t
  · rename_i hr
    refine ⟨Nat.le_refl _,fun _ id hid => ?_⟩
    rw [Option.not_isSome_iff_eq_none] at hr
    simp [Trip.log?,hr] at hid

theorem verdict_unless (n : Step Item) :
    Unless lost (fun t r t' => t' = t ∧ OnlyDataFault r) (verdict n) := by
  intro t
  obtain ⟨ht,hc⟩ := verdict_exec n t
  exact ⟨Nat.le_of_eq (congrArg lost ht.symm),fun _ => ⟨ht,hc⟩⟩

theorem alloc_bind {β : Type} {p : Visit α} {f : α → Visit β}
    {R : Int → Trip → Except Fault β → Trip → Prop}
    (hp : Unless lost (fun t r t' => ∃ x, r = .ok x ∧ Adds [] t t') p)
    (hf : ∀ x, Unless lost (fun t r t' => ∀ id, t.log? = some id → R id t r t') (f x))
    (hR : ∀ id t t₁ r t', Adds [] t t₁ → R id t₁ r t' → R id t r t') :
    Unless lost (fun t r t' => ∀ id, t.log? = some id → R id t r t') (p >>= f) := by
  apply (hp.bind hf).mono
  rintro t r t' (⟨e,⟨x,hx,-⟩,-⟩ | ⟨x,t₁,⟨-,-,ha⟩,h⟩) id hid
  · cases hx
  · exact hR id t t₁ r t' ha (h id (ha.log?.trans hid))

theorem Entered.front {n : Step Item} {status : String} {error : Option String} {t t₁ t' : Trip}
    {r : Except Fault Unit} (ha : Adds [] t t₁) (h : Entered n status error t₁ r t') :
    Entered n status error t r t' := by
  obtain ⟨hr,row,hadd,hrow⟩ := h
  exact ⟨hr,row,ha.trans hadd,hrow⟩

theorem skip_unless (n : Step Item) (reason : String) :
    Unless lost (fun t r t' => ∀ id, t.log? = some id → r = .ok defaultHandle ∧
      Entered n "skipped" (some reason) t (.ok ()) t') (skip n reason) := by
  have front (_ : Int) (t t₁ : Trip) (r : Except Fault String) (t' : Trip) (ha : Adds [] t t₁)
      (h : r = .ok defaultHandle ∧ Entered n "skipped" (some reason) t₁ (.ok ()) t') :
      r = .ok defaultHandle ∧ Entered n "skipped" (some reason) t (.ok ()) t' := ⟨h.1,h.2.front ha⟩
  refine alloc_bind (newObject_unless _) (fun input => alloc_bind (plant_unless _)
    (fun output => ?_) front) front
  apply ((recordVisit_unless n "skipped" input output (some reason)).bind fun _ => .pure _).mono
  rintro t r t' (⟨e,he,-⟩ | ⟨x,t₁,h,rfl,rfl⟩) id hid
  · cases (he id hid).1
  · exact ⟨rfl,h id hid⟩

theorem inputOf_unless (n : Step Item) (o : Outcome) :
    Unless lost (fun t r t' => ∃ x, r = .ok x ∧ Adds [] t t') (inputOf n o) := by
  unfold inputOf
  split
  · exact fun t => ⟨Nat.le_refl _,fun _ => ⟨_,rfl,.refl t⟩⟩
  · exact newObject_unless _

theorem performed_unless (n : Step Item) (o : Outcome) :
    Unless lost (fun t r t' => ∀ id, t.log? = some id → (∃ h, r = .ok h) ∧
      (n.kind?.any StepKind.recordsPhases = true ∧ Adds [] t t' ∨
        n.kind?.any StepKind.recordsPhases = false ∧ Entered n "completed" none t (.ok ()) t'))
      (performed n o) := by
  have recorded : Unless lost (fun t r t' => ∀ id, t.log? = some id → r = .ok () ∧
      (n.kind?.any StepKind.recordsPhases = true ∧ Adds [] t t' ∨
        n.kind?.any StepKind.recordsPhases = false ∧ Entered n "completed" none t (.ok ()) t'))
      (recordOutcome n o) := by
    unfold recordOutcome
    split
    · rename_i hk
      exact fun t => ⟨Nat.le_refl _,fun _ _ _ => ⟨rfl,.inl ⟨hk,.refl t⟩⟩⟩
    · rename_i hk
      refine (alloc_bind (inputOf_unless n o) (fun input => recordVisit_unless n "completed" input
        o.output none) fun id t t₁ r t' ha h => h.front ha).mono ?_
      exact fun t r t' h id hid =>
        ⟨(h id hid).1,.inr ⟨Bool.eq_false_iff.2 hk,rfl,(h id hid).2⟩⟩
  refine (recorded.bind (R := fun _ t r t' => (∃ h, r = .ok h) ∧ t' = t)
    fun _ t => ⟨Nat.le_refl _,fun _ => ⟨⟨_,rfl⟩,rfl⟩⟩).mono ?_
  rintro t r t' (⟨e,he,-⟩ | ⟨x,t₁,h,hr,rfl⟩) id hid
  · cases (he id hid).1
  · exact ⟨hr,(h id hid).2⟩

def Failed (n : Step Item) (f : Fault) (id : Int) (t : Trip) (r : Except Fault Unit) (t' : Trip) :
    Prop :=
  r = .ok () ∧ ∃ (row : StepLog) (t₁ : Trip), Adds [row] t t₁ ∧ row.node = n.id ∧
    row.status = "failed" ∧ row.error = some f.message ∧
    ∃ v now now', t₁.world.store.read t₁.run.context = .ok v ∧
      Rewrites id (fun row => { row with
        status := "failed", error := some f.message, completedAt := some now, context := v.plain,
        updatedAt := now' }) t₁ t'

theorem Failed.front {n : Step Item} {f : Fault} {id : Int} {t t₁ t' : Trip}
    {r : Except Fault Unit} (ha : Adds [] t t₁) (h : Failed n f id t₁ r t') :
    Failed n f id t r t' := by
  obtain ⟨hr,row,t₂,hadd,hrow⟩ := h
  exact ⟨hr,row,t₂,ha.trans hadd,hrow⟩

theorem failedInput_unless (n : Step Item) :
    Unless lost (fun t r t' => ∃ x, r = .ok x ∧ Adds [] t t') (failedInput n) := by
  unfold failedInput
  split
  · intro t
    have he : (work (t.run.entry "extractedData")).exec t =
        (.ok (Context.get t.world.store t.run.context "extractedData"),t) := rfl
    rw [exec_bind_ok (exec_current t),exec_bind_ok he]
    exact newObject_unless _ t
  · exact newObject_unless _

theorem recordFailure_unless (n : Step Item) (f : Fault) :
    Unless lost (fun t r t' => ∀ id, t.log? = some id → Failed n f id t r t')
      (recordFailure n f) := by
  have closed : Unless lost (fun t r t' => ∀ id, t.log? = some id → r = .ok () ∧
      ∃ v now now', t.world.store.read t.run.context = .ok v ∧
        Rewrites id (fun row => { row with
          status := "failed", error := some f.message, completedAt := some now, context := v.plain,
          updatedAt := now' }) t t')
      (snapshot >>= fun context => record fun r => r.fail f.message (some context)) := by
    refine (snapshot_unless.bind fun v => change_unless v (fun now row => { row with
      status := "failed", error := some f.message, completedAt := some now })
      fun _ _ => rfl).mono ?_
    rintro t r t' (⟨e,⟨v,-,hv,-⟩,-⟩ | ⟨v,t₁,⟨w,hw,hv,rfl⟩,hc⟩) id hid
    · cases hv
    · cases hv
      obtain ⟨rfl,now,now',hr⟩ := hc id hid
      exact ⟨rfl,v,now,now',hw,hr⟩
  have front (id : Int) (t t₁ : Trip) (r : Except Fault Unit) (t' : Trip) (ha : Adds [] t t₁)
      (h : Failed n f id t₁ r t') : Failed n f id t r t' := h.front ha
  -- first the record of the visit, then that of the run
  have entered (input output : Item) :
      Unless lost (fun t r t' => ∀ id, t.log? = some id → Failed n f id t r t')
        (recordVisit n "failed" input output (some f.message) >>= fun _ => snapshot >>=
          fun context => record fun r => r.fail f.message (some context)) := by
    refine ((recordVisit_unless n "failed" input output (some f.message)).bind
      fun _ => closed).mono ?_
    rintro t r t' (⟨e,he,-⟩ | ⟨x,t₁,h,hc⟩) id hid
    · cases (he id hid).1
    · obtain ⟨-,row,hadd,hnode,hstatus,herror⟩ := h id hid
      obtain ⟨hr,hrest⟩ := hc id (hadd.log?.trans hid)
      exact ⟨hr,row,t₁,hadd,hnode,hstatus,herror,hrest⟩
  have recorded := alloc_bind (failedInput_unless n) (fun input => alloc_bind
    (plant_unless (outputOf f)) (fun output => entered input output) front) front
  intro t
  unfold recordFailure
  rw [exec_bind_ok (exec_current t)]
  split
  · exact recorded t
  · rename_i hr
    refine ⟨Nat.le_refl _,fun _ id hid => ?_⟩
    rw [Option.not_isSome_iff_eq_none] at hr
    simp [Trip.log?,hr] at hid

end Visit

end StepGraph
