import Mathlib.Data.List.Forall2
import StepGraph.Proofs.Account

/-!
The audit trail of a whole walk. The records of a walk are the groups of its stops, one behind the
other; a failed record stands there just when the walk was ended by a step, and then it is the last
one and the record of the run repeats its text.
-/
namespace StepGraph

def Stop.step? {σ κ : Type} (st : Stop σ κ) : Option (Step κ) :=
  match st.node with
  | .start _ => none
  | .step n => some n

namespace Visit

open Attempt Trip

/-- At every stop the record of the run names the last step whose visit began, and so it does
behind the stop. -/
def NamesLastStep (id : Int) : Option (Step Item) → List (Stop Trip Item) → Prop
  | _, [] => True
  | last, st :: stops =>
    (∀ n, st.node = .step n → ∀ u, Boundary n st.before u → NamesNode id n u) ∧
      (∀ n, st.step?.or last = some n → NamesNode id n st.after) ∧
        NamesLastStep id (st.step?.or last) stops

def TrailTold (stops : List (Stop Trip Item)) (t t' : Trip) : Prop :=
  ∀ id, t.log? = some id → t'.log? = some id ∧
    (∃ groups, Extends groups.flatten t t' ∧ List.Forall₂ (Account id) stops groups) ∧
    ∀ last, (∀ n, last = some n → NamesNode id n t) → NamesLastStep id last stops

variable {g : Graph Item}

theorem stop_told {st : Stop Trip Item} (hst : st.IsOf g step) :
    st.before.lost ≤ st.after.lost ∧
      (st.after.lost = st.before.lost → TrailTold [st] st.before st.after) := by
  obtain ⟨target,node,before,after,exit⟩ := st
  obtain ⟨-,hv⟩ := hst
  cases node with
  | start m =>
    obtain ⟨rfl,rfl⟩ : exit = .ok defaultHandle ∧ after = before := hv
    refine ⟨Nat.le_refl _,fun _ id hid => ⟨hid,⟨[[]],?_,?_⟩,fun last hlast => ?_⟩⟩
    · exact (List.append_nil _).symm
    · exact .cons (.marker m rfl ⟨_,rfl⟩) .nil
    · exact ⟨fun n hn => (by cases hn),hlast,trivial⟩
  | step n =>
    obtain ⟨hle,h⟩ := step_unless n before
    have hv : (step n).exec before = (exit,after) := hv
    rw [hv] at hle h
    refine ⟨hle,fun hl id hid => ?_⟩
    obtain ⟨hlog,hrows,hnames⟩ := h hl id hid
    obtain ⟨rows,hext,hacc⟩ := hrows target
    refine ⟨hlog,⟨[rows],?_,.cons hacc .nil⟩,fun last _ => ⟨?_,?_,trivial⟩⟩
    · simpa using hext
    · rintro _ ⟨⟩
      exact hnames
    · rintro _ ⟨⟩
      apply hnames after
      have he := Boundary.ended (n := n) (t := before)
      rw [hv] at he
      exact he

theorem trail_told {t t' : Trip} {target next : Option String} {stops : List (Stop Trip Item)}
    (h : g.Trail step t target stops t' next) :
    t.lost ≤ t'.lost ∧ (t'.lost = t.lost → TrailTold stops t t') := by
  induction h with
  | nil t target =>
    refine ⟨Nat.le_refl _,fun _ id hid => ⟨hid,⟨[],?_,.nil⟩,fun _ _ => trivial⟩⟩
    exact (List.append_nil _).symm
  | @cons st stops t' next hst _ ih =>
    obtain ⟨hle,hone⟩ := stop_told hst
    obtain ⟨hle',hrest⟩ := ih
    refine ⟨Nat.le_trans hle hle',fun hl id hid => ?_⟩
    obtain ⟨hlog,⟨groups,hext,hacc⟩,hchart⟩ := hone (by omega) id hid
    obtain ⟨hlog',⟨groups',hext',hacc'⟩,hchart'⟩ := hrest (by omega) id hlog
    refine ⟨hlog',⟨groups ++ groups',?_,?_⟩,fun last hlast => ?_⟩
    · unfold Extends at hext hext' ⊢
      rw [hext',hext,List.flatten_append,List.append_assoc]
    · obtain ⟨rows,rest,hrows,hnil,rfl⟩ := List.forall₂_cons_left_iff.1 hacc
      cases hnil
      exact .cons hrows hacc'
    · obtain ⟨hpoints,hafter,-⟩ := hchart last hlast
      exact ⟨hpoints,hafter,hchart' _ hafter⟩

theorem walk_lost_le (g : Graph Item) (N : Nat) (t : Trip) :
    t.lost ≤ ((g.walk step N).run t).2.lost := by
  cases hm : g.start with
  | error f =>
    rw [Graph.walk_stopped hm step N]
    exact Nat.le_refl _
  | ok m =>
    obtain ⟨stops,next,ht,-⟩ := Graph.walk_trail hm step N t
    exact (trail_told ht).1

theorem Account.of_passed {id : Int} {st : Stop Trip Item} {rows : List StepLog}
    (h : Account id st rows) (hp : st.Passed) :
    ∀ row ∈ rows, row.status = "completed" ∨ row.status = "skipped" := by
  obtain ⟨handle,hexit⟩ := hp
  cases h with
  | marker m node passed => simp
  | skipped n reason t row node opened passed own status => simp [status]
  | settled n t rows node opened settled =>
    rw [hexit] at settled
    cases settled with
    | completed _ _ _ own status => exact fun row hrow => .inl (status row hrow)
  | disturbed n f t node opened exit untroubled => simp

/-- A visit is recorded as skipped just where there was a reason to pass over its step. -/
theorem Account.skipped_iff {id : Int} {st : Stop Trip Item} {rows : List StepLog}
    (h : Account id st rows) :
    (∃ row ∈ rows, row.status = "skipped") ↔
      ∃ n reason t, st.node = .step n ∧ (opening n).exec st.before = (.ok (some reason),t) := by
  obtain ⟨target,node,before,after,exit⟩ := st
  cases h with
  | marker m hm passed =>
    refine ⟨by simp,?_⟩
    rintro ⟨n,reason,t,hn,-⟩
    cases hm.symm.trans hn
  | skipped n reason t row hm opened passed own status =>
    exact ⟨fun _ => ⟨n,reason,t,hm,opened⟩,fun _ => ⟨row,List.mem_singleton_self row,status⟩⟩
  | settled n t rows hm opened settled =>
    constructor
    · rintro ⟨row,hrow,hs⟩
      cases settled with
      | completed _ _ _ own status =>
        simp [status row hrow] at hs
      | failed f x _ phases last whole own status lastStatus =>
        rcases List.mem_append.1 hrow with hrow | hrow
        · rcases status row hrow with h | h <;> simp [h] at hs
        · simp [List.mem_singleton.1 hrow,lastStatus] at hs
    · rintro ⟨n',reason,t',hn,ho⟩
      obtain rfl : n = n' := Node.step.inj (hm.symm.trans hn)
      cases opened.symm.trans ho
  | disturbed n f t hm opened hf untroubled =>
    refine ⟨by simp,?_⟩
    rintro ⟨n',reason,t',hn,ho⟩
    obtain rfl : n = n' := Node.step.inj (hm.symm.trans hn)
    cases opened.symm.trans ho

/-- The text and the record of the run that a fault tells by which a step ended a run. -/
def endedByStep? : Except Fault Unit → Option (String × Option Int)
  | .error (.run message executionLog _ _ _ _) => some (message,executionLog)
  | _ => none

def EndedByStep (outcome : Except Fault Unit) (message : String) (executionLog : Option Int) : Prop :=
  endedByStep? outcome = some (message,executionLog)

instance (outcome : Except Fault Unit) (message : String) (executionLog : Option Int) :
    Decidable (EndedByStep outcome message executionLog) :=
  inferInstanceAs (Decidable (endedByStep? outcome = some (message,executionLog)))

/-- The group of the visit that ended a run. -/
def Closes (id : Int) (message : String) (group : List StepLog) (t : Trip) : Prop :=
  ∃ phases last whole, group = phases ++ [last] ∧ last.status = "failed" ∧
    last.error = some message ∧ t.row? id = some whole ∧ whole.status = "failed" ∧
    whole.error = some message

theorem Account.of_fault {id : Int} {st : Stop Trip Item} {rows : List StepLog} {f : Fault}
    (h : Account id st rows) (hf : st.exit = .error f) :
    (f.isWorkflowTrouble = false ∧ rows = []) ∨
      ∃ message, EndedByStep (.error f) message (some id) ∧ Closes id message rows st.after := by
  have passed (hp : st.Passed) : False := by
    obtain ⟨handle,he⟩ := hp
    rw [he] at hf
    cases hf
  cases h with
  | marker m node hp => exact (passed hp).elim
  | skipped n reason t row node opened hp own status => exact (passed hp).elim
  | settled n t rows node opened settled =>
    rw [hf] at settled
    cases settled with
    | failed cause x _ phases last whole own status lastStatus lastError row rowStatus rowError =>
      exact .inr ⟨cause.message,rfl,phases,last,whole,rfl,lastStatus,lastError,row,
        rowStatus,rowError⟩
  | disturbed n f' t node opened exit untroubled =>
    obtain rfl : f' = f := Except.error.inj (exit.symm.trans hf)
    exact .inl ⟨untroubled,rfl⟩

theorem forall₂_concat {α β : Type} {R : α → β → Prop} {xs : List α} {x : α} {ys : List β}
    (h : List.Forall₂ R (xs ++ [x]) ys) :
    ∃ ys' y, ys = ys' ++ [y] ∧ List.Forall₂ R xs ys' ∧ R x y := by
  induction xs generalizing ys with
  | nil =>
    obtain ⟨y,rest,hy,hnil,rfl⟩ := List.forall₂_cons_left_iff.1 h
    cases hnil
    exact ⟨[],y,rfl,.nil,hy⟩
  | cons x' xs ih =>
    obtain ⟨y',rest,hy',hrest,rfl⟩ := List.forall₂_cons_left_iff.1 h
    obtain ⟨ys',y,rfl,hxs,hy⟩ := ih hrest
    exact ⟨y' :: ys',y,rfl,.cons hy' hxs,hy⟩

theorem statuses_of_passed {id : Int} {stops : List (Stop Trip Item)}
    {groups : List (List StepLog)} (h : List.Forall₂ (Account id) stops groups)
    (hp : ∀ st ∈ stops, st.Passed) :
    ∀ row ∈ groups.flatten, row.status = "completed" ∨ row.status = "skipped" := by
  induction h with
  | nil => simp
  | cons hrows _ ih =>
    obtain ⟨hp,hrest⟩ := List.forall_mem_cons.1 hp
    intro row hrow
    rcases List.mem_append.1 hrow with hrow | hrow
    · exact hrows.of_passed hp row hrow
    · exact ih hrest row hrow

/-- How the groups of a walk go with its outcome: a walk that no step ended left no failed record,
and a walk that a step ended left them in its last group only. -/
inductive GroupsVerdict (id : Int) (groups : List (List StepLog)) (t : Trip)
    (outcome : Except Fault Unit) : Prop
  | clean (status : ∀ row ∈ groups.flatten, row.status = "completed" ∨ row.status = "skipped")
      (unbroken : ∀ message executionLog, ¬ EndedByStep outcome message executionLog)
  | broken (message : String) (earlier : List (List StepLog)) (last : List StepLog)
      (parts : groups = earlier ++ [last])
      (status : ∀ row ∈ earlier.flatten, row.status = "completed" ∨ row.status = "skipped")
      (broke : EndedByStep outcome message (some id)) (closes : Closes id message last t)

theorem verdict_of_ending {id : Int} {limit : Int} {left : Nat} {stops : List (Stop Trip Item)}
    {groups : List (List StepLog)} {t t' : Trip} {target next : Option String}
    {outcome : Except Fault Unit} (ht : g.Trail step t target stops t' next)
    (h : List.Forall₂ (Account id) stops groups) (he : g.Ending limit left stops next outcome) :
    GroupsVerdict id groups t' outcome := by
  cases he with
  | returned next passed dangling =>
    refine .clean (statuses_of_passed h passed) ?_
    intro message e hf
    cases hf
  | capped target passed full =>
    refine .clean (statuses_of_passed h passed) ?_
    intro message e hf
    cases hf
  | failed st f last fault passed =>
    have hafter := ht.after_last last
    obtain ⟨init,rfl⟩ := List.getLast?_eq_some_iff.1 last
    rw [List.dropLast_concat] at passed
    obtain ⟨earlier,rows,rfl,hearlier,hrows⟩ := forall₂_concat h
    have status := statuses_of_passed hearlier passed
    rcases hrows.of_fault fault with ⟨untroubled,rfl⟩ | ⟨message,broke,closes⟩
    · refine .clean (by simpa using status) ?_
      intro message e hf
      unfold EndedByStep endedByStep? at hf
      split at hf
      · rename_i heq
        cases heq
        cases untroubled
      · cases hf
    · rw [hafter] at closes
      exact .broken message earlier rows rfl status broke closes

theorem EndedByStep.unique {outcome : Except Fault Unit} {message message' : String}
    {executionLog executionLog' : Option Int} (h : EndedByStep outcome message executionLog)
    (h' : EndedByStep outcome message' executionLog') :
    message = message' ∧ executionLog = executionLog' := by
  obtain ⟨rfl,rfl⟩ := Prod.mk.inj (Option.some.inj (h.symm.trans h'))
  exact ⟨rfl,rfl⟩

variable {id : Int} {groups : List (List StepLog)} {t : Trip} {outcome : Except Fault Unit}

theorem GroupsVerdict.failed_iff (h : GroupsVerdict id groups t outcome) :
    (∃ row ∈ groups.flatten, row.status = "failed") ↔
      ∃ message executionLog, EndedByStep outcome message executionLog := by
  cases h with
  | clean status unbroken =>
    constructor
    · rintro ⟨row,hrow,hs⟩
      rcases status row hrow with h | h <;> simp [h] at hs
    · rintro ⟨message,e,hb⟩
      exact (unbroken message e hb).elim
  | broken message earlier last parts status broke closes =>
    refine ⟨fun _ => ⟨message,_,broke⟩,fun _ => ?_⟩
    obtain ⟨phases,row,whole,rfl,hs,-⟩ := closes
    refine ⟨row,?_,hs⟩
    simp [parts]

theorem GroupsVerdict.closes (h : GroupsVerdict id groups t outcome) {message : String}
    {executionLog : Option Int} (hb : EndedByStep outcome message executionLog) :
    executionLog = some id ∧ ∃ last, groups.getLast? = some last ∧ Closes id message last t := by
  cases h with
  | clean status unbroken => exact (unbroken message executionLog hb).elim
  | broken message' earlier last parts status broke closes =>
    obtain ⟨rfl,rfl⟩ := broke.unique hb
    exact ⟨rfl,last,by simp [parts],closes⟩

theorem GroupsVerdict.earlier (h : GroupsVerdict id groups t outcome) :
    ∀ row ∈ groups.dropLast.flatten, row.status = "completed" ∨ row.status = "skipped" := by
  cases h with
  | clean status unbroken =>
    intro row hrow
    obtain ⟨group,hgroup,hrow⟩ := List.mem_flatten.1 hrow
    exact status row (List.mem_flatten.2 ⟨group,List.dropLast_subset groups hgroup,hrow⟩)
  | broken message earlier last parts status broke closes =>
    rw [parts,List.dropLast_concat]
    exact status

theorem Extends.getLast? {t t' : Trip} {phases : List StepLog} {last : StepLog}
    (h : Extends groups.flatten t t') (hg : groups.getLast? = some (phases ++ [last])) :
    t'.world.db.stepLogs.rows.getLast? = some last := by
  obtain ⟨earlier,rfl⟩ := List.getLast?_eq_some_iff.1 hg
  unfold Extends at h
  simp [h]

theorem walk_told (g : Graph Item) (N : Nat) (t : Trip) (id : Int) (hlog : t.log? = some id)
    (hlost : ((g.walk step N).run t).2.lost = t.lost) :
    ∃ stops groups, ((g.walk step N).run t).1.visited = stops.map (·.node.id) ∧
      (∀ m, g.start = .ok m → ∃ next,
        g.Trail step t (g.outset m) stops ((g.walk step N).run t).2 next ∧
        g.Ending N N stops next ((g.walk step N).run t).1.outcome) ∧
      List.Forall₂ (Account id) stops groups ∧
      Extends groups.flatten t ((g.walk step N).run t).2 ∧
      GroupsVerdict id groups ((g.walk step N).run t).2 ((g.walk step N).run t).1.outcome ∧
      NamesLastStep id none stops ∧ ((g.walk step N).run t).2.log? = some id := by
  cases hm : g.start with
  | error f =>
    have hf : ∃ m, f = .badGraph m [] := by
      unfold Graph.start at hm
      split at hm <;> cases hm
      exact ⟨_,rfl⟩
    obtain ⟨m,rfl⟩ := hf
    rw [Graph.walk_stopped hm step N]
    refine ⟨[],[],rfl,fun m hm => (by cases hm),.nil,(List.append_nil _).symm,?_,trivial,hlog⟩
    refine .clean (by simp) ?_
    intro message e hf
    cases hf
  | ok m =>
    obtain ⟨stops,next,ht,hv,hl,he⟩ := Graph.walk_trail hm step N t
    obtain ⟨hlog',⟨groups,hext,hacc⟩,hchart⟩ := (trail_told ht).2 hlost id hlog
    refine ⟨stops,groups,hv,fun m' hm' => ?_,hacc,hext,verdict_of_ending ht hacc he,
      hchart none fun n hn => (by cases hn),hlog'⟩
    cases hm'
    exact ⟨next,ht,he⟩

/-- A run with a started record none of whose writes is lost tells its walk in groups of records,
one for each stop. A failed record is there just when a step ended the run. Then the failed ones
stand in the last group, the last of them is the last record of all, and it, the record of the run
and the fault have one text; every other group has completed and skipped ones. A group says skipped
just where there was a reason to pass over the step, and the record of the run always names the last
step whose visit began. -/
theorem walk_log (g : Graph Item) (N : Nat) (t : Trip) (id : Int) (hlog : t.log? = some id)
    (hlost : ((g.walk step N).run t).2.lost = t.lost) :
    ∃ stops groups,
      ((g.walk step N).run t).1.visited = stops.map (·.node.id) ∧
      (∀ m, g.start = .ok m → ∃ next,
        g.Trail step t (g.outset m) stops ((g.walk step N).run t).2 next ∧
        g.Ending N N stops next ((g.walk step N).run t).1.outcome) ∧
      List.Forall₂ (Account id) stops groups ∧
      Extends groups.flatten t ((g.walk step N).run t).2 ∧
      ((∃ row ∈ groups.flatten, row.status = "failed") ↔
        ∃ message executionLog, EndedByStep ((g.walk step N).run t).1.outcome message executionLog) ∧
      (∀ message executionLog,
        EndedByStep ((g.walk step N).run t).1.outcome message executionLog →
          ∃ phases last whole, executionLog = some id ∧
            groups.getLast? = some (phases ++ [last]) ∧
            ((g.walk step N).run t).2.world.db.stepLogs.rows.getLast? = some last ∧
            last.status = "failed" ∧ last.error = some message ∧
            ((g.walk step N).run t).2.row? id = some whole ∧ whole.status = "failed" ∧
            whole.error = some message) ∧
      (∀ row ∈ groups.dropLast.flatten, row.status = "completed" ∨ row.status = "skipped") ∧
      List.Forall₂ (fun st rows => (∃ row ∈ rows, row.status = "skipped") ↔
        ∃ n reason t, st.node = .step n ∧ (opening n).exec st.before = (.ok (some reason),t))
        stops groups ∧
      NamesLastStep id none stops := by
  obtain ⟨stops,groups,hv,ht,hacc,hext,verdict,hchart,-⟩ := walk_told g N t id hlog hlost
  refine ⟨stops,groups,hv,ht,hacc,hext,verdict.failed_iff,?_,verdict.earlier,
    hacc.imp fun _ _ h => h.skipped_iff,hchart⟩
  intro message executionLog hb
  obtain ⟨rfl,_,hg,phases,last,whole,rfl,hs,he,hrow,hws,hwe⟩ := verdict.closes hb
  exact ⟨phases,last,whole,rfl,hg,hext.getLast? hg,hs,he,hrow,hws,hwe⟩

def upload : Graph Item :=
  ⟨[("s",.start { id := "s" }),("a",.step { id := "a", type := "sftp_upload", config := .cell 1 })],
    [{ id := "in", source := "s", target := "a" }]⟩

def withoutSftp : Trip where
  world :=
    { store := { cells := #[.object [("order",.text "A7")],.object []] },
      db := { executionLogs := { rows := [{ id := 1, startedAt := default, updatedAt := default }] } },
      offered := { sftp := false } }
  run := { context := .cell 0, recorder := some { log := some 1 } }

theorem walk_log_upload :
    withoutSftp.log? = some 1 ∧
      ((upload.walk step 1).run withoutSftp).2.lost = withoutSftp.lost ∧
      ∃ last, ((upload.walk step 1).run withoutSftp).2.world.db.stepLogs.rows.getLast? = some last ∧
        last.status = "failed" ∧ last.error = some "No SFTP configuration found" := by
  have hlost : ((upload.walk step 1).run withoutSftp).2.lost = withoutSftp.lost := by
    decide +kernel
  obtain ⟨_,_,_,_,_,_,_,broke,-⟩ := walk_log upload 1 withoutSftp 1 rfl hlost
  obtain ⟨_,last,_,_,_,hlast,hstatus,herror,-⟩ :=
    broke "No SFTP configuration found" (some 1) (by decide +kernel)
  exact ⟨rfl,hlost,last,hlast,hstatus,herror⟩

end Visit

/-! A run without a record of its own. Nothing that its walk does changes the record of any run. -/

open Attempt

structure World.SameRuns (w w' : World) : Prop where
  logs : w'.db.executionLogs = w.db.executionLogs
  lost_le : w.lost ≤ w'.lost

instance : IsPreorder World World.SameRuns where
  refl _ := ⟨rfl,Nat.le_refl _⟩
  trans _ _ _ h h' := ⟨h'.logs.trans h.logs,Nat.le_trans h.lost_le h'.lost_le⟩

namespace Work

variable {α : Type}

theorem Unlogged.sameRuns {p : Work α} (h : Unlogged p) : Keeps World.SameRuns p := fun w =>
  ⟨congrArg World.Logs.executionLogs (h.logs w),
    Nat.le_of_eq (congrArg World.Logs.lost (h.logs w)).symm⟩

theorem forLog_sameRuns {p : Work α} (h : Keeps World.SameRuns p) :
    Keeps World.SameRuns (forLog p) := by
  intro w
  have h := h w
  rw [exec_forLog]
  rcases hw : p.exec w with ⟨e | x,w'⟩ <;> rw [hw] at h
  · exact ⟨h.logs,Nat.le_succ_of_le h.lost_le⟩
  · exact h

end Work

theorem Recorder.change_sameRuns {r : Recorder} (hr : r.record? = none) (context : Option Value)
    (f : Time.Moment → ExecutionLog → ExecutionLog) :
    Keeps World.SameRuns (r.change context f) := by
  rw [change_none hr]
  exact Keeps.closed.pure ()

namespace Visit

def Unrecorded (t t' : Trip) : Prop :=
  t.log? = none → t'.log? = none ∧ t.world.SameRuns t'.world

instance : IsPreorder Trip Unrecorded where
  refl t h := ⟨h,refl_of World.SameRuns t.world⟩
  trans _ _ _ h h' hn := ⟨(h' (h hn).1).1,trans_of World.SameRuns (h hn).2 (h' (h hn).1).2⟩

abbrev NoRecord (recorder : Option Recorder) : Prop := recorder.bind Recorder.record? = none

theorem Under.unrecorded {t t' : Trip} (h : Under NoRecord World.SameRuns t t') : Unrecorded t t' := by
  intro hn
  obtain ⟨hrec,hw⟩ := h hn
  refine ⟨?_,hw⟩
  unfold Trip.log?
  rw [hrec]
  exact hn

theorem around_unrecorded : Around (Keeps (Under NoRecord World.SameRuns)) := by
  refine around_under (fun hp => hp.appendOnly.unlogged.sameRuns)
    (fun hp => Work.forLog_sameRuns hp.appendOnly.unlogged.sameRuns) ?_ ?_
  · intro r hr context f _
    exact r.change_sameRuns hr context f
  · intro r hr n e
    rw [Recorder.add_none hr]
    exact Keeps.closed.pure _

theorem perform_unrecorded (n : Step Item) : Keeps (Under NoRecord World.SameRuns) (perform n) := by
  refine perform_under n (Work.AppendOnly.plant _).unlogged.sameRuns fun k hk run _ w => ?_
  obtain ⟨-,he,hl⟩ := (Steps.perform_contextLast run hk).journals w
  exact ⟨he,hl⟩

theorem step_unrecorded (n : Step Item) : Keeps Unrecorded (step n) :=
  (around_unrecorded.step n (perform_unrecorded n).caught).mono fun _ _ => Under.unrecorded

theorem walk_unrecorded (g : Graph Item) (N : Nat) (t : Trip) :
    Unrecorded t ((g.walk step N).run t).2 := by
  cases hm : g.start with
  | error f =>
    rw [Graph.walk_stopped hm step N]
    exact refl_of Unrecorded t
  | ok m =>
    obtain ⟨stops,next,ht,-⟩ := Graph.walk_trail hm step N t
    exact ht.keeps step_unrecorded

end Visit

end StepGraph
