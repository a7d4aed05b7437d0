import StepGraph.Proofs.RunLog
import StepGraph.Proofs.VisitTogether

/-!
Whole runs that differ in the outages of their audit trails only. Where the first run loses no
write, the second one visits the same nodes in the same contexts, makes the same calls and ends the
same way, whichever of its writes are lost. Only numbers of records may be missing from what it
reports.
-/
namespace StepGraph

open Attempt Work

/-- Reports that differ at most in numbers of records, which may be gone. -/
inductive Report.MayLoseNumbers (r : Report) : Report → Prop
  | intro (executionLog extractionLog : Option Int) (hl : MayBeGone Eq r.executionLog executionLog)
      (hx : MayBeGone Eq r.extractionLog extractionLog) :
      MayLoseNumbers r { r with executionLog := executionLog, extractionLog := extractionLog }

theorem Work.Unlogged.bestEffort {α : Type} {p : Work α} (h : Unlogged p) :
    Unlogged (bestEffort p) := by
  intro l w
  rw [exec_bestEffort,exec_bestEffort,h l w]
  rcases p.exec w with ⟨f | x,w'⟩
  · simp only
    split <;> rfl
  · rfl

theorem heldAll_mayBeGone {is js : List (Option Int)} (h : List.Forall₂ (MayBeGone Eq) is js)
    (hi : heldAll is = .ok ()) : heldAll js = .ok () := by
  unfold heldAll at hi ⊢
  split at hi
  · rename_i hall
    rw [if_pos]
    induction h with
    | nil => rfl
    | @cons i j is js h _ ih =>
      simp only [List.all_cons,Bool.and_eq_true] at hall ⊢
      refine ⟨?_,ih hall.2⟩
      cases h with
      | kept h =>
        cases h
        exact hall.1
      | gone => rfl
  · cases hi

theorem Recorder.newRecord_tolerates {r r' : Recorder} (hr : r.MayLoseNumbers r') (context : Value)
    {w w' : World} (hw : w.Alike w') (hruns : w'.db.executionLogs = w.db.executionLogs) :
    Tolerates Eq w w' (r.newRecord context) (r'.newRecord context) := by
  obtain ⟨log,x,-,hx⟩ := hr
  obtain ⟨l,rfl⟩ := hw
  obtain ⟨executionLogs,stepLogs,extractionLogs,outages,lost⟩ := l
  obtain rfl : executionLogs = w.db.executionLogs := hruns
  refine .look (u := database) (v := database) rfl rfl ?_
  rintro db ⟨⟩
  refine .inl ⟨_,rfl,.same rfl rfl fun rows hrows => .look rfl rfl fun _ hheld => ?_⟩
  refine .inl ⟨(),heldAll_mayBeGone ?_ hheld,?_⟩
  · exact .cons (.refl Eq.refl _) (.cons hx (.cons (.refl Eq.refl _) (.cons (.refl Eq.refl _) .nil)))
  · refine .same rfl rfl fun _ _ => .same (u := moment) (v := moment) rfl rfl fun now _ => ?_
    exact .set ⟨⟨_,stepLogs,extractionLogs,outages,lost⟩,rfl⟩ rfl

namespace Launch

theorem findKind_appendOnly (r : Request) : AppendOnly (findKind r) := by
  unfold findKind
  split
  · exact .database_bind (fun db => .of _) fun _ _ => rfl
  · exact .database_bind (fun db => .of _) fun _ _ => rfl
  · exact AppendOnly.closed.pure none

theorem logWrite_trail {α : Type} {Post : World → α → Database → Prop} {body : Work α}
    (hb : Writes Post body) (hP : ∀ w x db, Post w x db → w.Alike { w with db := db }) :
    Keeps World.Alike (logWrite body) := by
  intro w
  rcases logWrite_cases hb w with ⟨x,db,hw,hpost⟩ | ⟨hw,-⟩ <;> rw [hw]
  · exact (World.Alike.pop w).trans (hP _ _ _ hpost)
  · exact (World.Alike.pop w).trans (.lose _)

theorem openDocument_trail (mode : Mode) (r : Request) :
    Keeps World.Alike (openDocument mode r) := by
  refine Keeps.bind (.of _) fun text => logWrite_trail (writes_newDocument mode r text) ?_
  rintro w id db ⟨row,rfl,-⟩
  exact ⟨{ w.logs with extractionLogs := _ },rfl⟩

theorem start_trail (rec : Recorder) (context : Value) :
    Keeps World.Alike (rec.start context) := by
  refine Keeps.bind (logWrite_trail (rec.writes_newRecord context) ?_) fun _ => Keeps.closed.pure _
  rintro w id db ⟨row,rfl,-⟩
  exact ⟨{ w.logs with executionLogs := _ },rfl⟩

theorem opening_trail (mode : Mode) (workflow : Int) (r : Request) :
    Keeps World.Alike (opening mode workflow r) := by
  have asked : Keeps World.Alike (bestEffort (findKind r)) := by
    intro w
    rcases findKind_cases r w with ⟨-,found,h⟩ | ⟨-,h⟩ <;> rw [h] <;> exact refl_of World.Alike w
  refine asked.bind fun found => (openDocument_trail mode r).bind fun document => ?_
  exact (start_trail _ _).bind fun rec => Keeps.closed.pure _

theorem newDocument_tolerates (mode : Mode) (r : Request) (text : Option String) (w : World)
    (outages : List Bool) :
    Tolerates Eq w { w with outages := outages } (newDocument mode r text)
      (newDocument mode r text) := by
  refine .same (u := database) (r := .ok w.db) rfl rfl ?_
  rintro db ⟨⟩
  refine .same rfl rfl fun _ _ => .same rfl rfl fun _ _ => ?_
  exact .set ⟨{ w.logs with extractionLogs := _, outages := outages },rfl⟩ rfl

theorem openDocument_alike (mode : Mode) (r : Request) (w : World) (outages : List Bool) :
    MatchesAt World.lost World.Alike Eq (MayBeGone Eq) w { w with outages := outages }
      (openDocument mode r) (openDocument mode r) := by
  have hs : w.Alike { w with outages := outages } := ⟨{ w.logs with outages := outages },rfl⟩
  unfold openDocument
  cases keptText r.extracted with
  | error f => exact fun _ => ⟨hs,.error rfl⟩
  | ok text =>
    have written := newDocument_tolerates mode r text w.popped outages.tail
    refine logWrite_alike (p := newDocument mode r text) (writes_newDocument mode r text) ?_ hs written
    rintro w id db ⟨row,rfl,-⟩
    exact ⟨{ w.logs with extractionLogs := _ },rfl⟩

theorem openDocument_runs (mode : Mode) (r : Request) (w : World) :
    ((openDocument mode r).exec w).2.db.executionLogs = w.db.executionLogs := by
  unfold openDocument
  cases keptText r.extracted with
  | error f => rfl
  | ok text =>
    change ((logWrite (newDocument mode r text)).exec w).2.db.executionLogs = _
    rcases logWrite_cases (writes_newDocument mode r text) w with
      ⟨x,db,hw,row,rfl,-⟩ | ⟨hw,-⟩ <;> rw [hw] <;> rfl

theorem start_alike {rec rec' : Recorder} (hr : rec.MayLoseNumbers rec') (context : Value)
    {w w' : World} (hw : w.Alike w') (hruns : w'.db.executionLogs = w.db.executionLogs) :
    MatchesAt World.lost World.Alike Eq Recorder.MayLoseNumbers w w'
      (rec.start context) (rec'.start context) := by
  have written : MatchesAt World.lost World.Alike Eq (MayBeGone Eq) w w'
      (logWrite (rec.newRecord context)) (logWrite (rec'.newRecord context)) := by
    refine logWrite_alike (rec.writes_newRecord context) ?_ hw ?_
    · rintro w id db ⟨row,rfl,-⟩
      exact ⟨{ w.logs with executionLogs := _ },rfl⟩
    · exact Recorder.newRecord_tolerates hr context hw.popped hruns
  refine written.bind (logWrite_unless (rec.writes_newRecord context) w).1 (fun _ _ => Nat.le_refl _) ?_
  intro log log' t t' _ _ hlog ht _
  obtain ⟨_,x,-,hx⟩ := hr
  exact ⟨ht,.ok (.intro log' x hlog hx)⟩

theorem opening_alike (mode : Mode) (workflow : Int) (r : Request) (w : World)
    (outages : List Bool) :
    MatchesAt World.lost World.Alike Eq (fun o o' => o'.1 = o.1 ∧ o.2.MayLoseNumbers o'.2)
      w { w with outages := outages } (opening mode workflow r) (opening mode workflow r) := by
  have hs : w.Alike { w with outages := outages } := ⟨{ w.logs with outages := outages },rfl⟩
  -- the kind is looked for without a log write, so no outage is met
  have asked {found : Except Fault (Option (Option DocumentKind))}
      (h : (bestEffort (findKind r)).exec w = (found,w)) :
      (bestEffort (findKind r)).exec { w with outages := outages } =
        (found,{ w with outages := outages }) := by
    have hl := (findKind_appendOnly r).unlogged.bestEffort { w.logs with outages := outages } w
    rw [h] at hl
    exact hl
  let recorder (document : Option Int) : Recorder :=
    { workflow := some workflow, mode := mode.name, user := r.user, extractionLog := document,
      extractionType := r.extractionType, transformationType := r.transformationType }
  have started (kind : Option DocumentKind) (document : Option Int) := (start_unless
    (recorder document) (.object [])).bind fun rec => .pure (kind,rec)
  rcases findKind_cases r w with ⟨-,kind,hk⟩ | ⟨-,hk⟩
  · have opened : MatchesAt World.lost World.Alike Eq (fun o o' => o'.1 = o.1 ∧ o.2.MayLoseNumbers o'.2)
        w { w with outages := outages }
        (openDocument mode r >>= fun document => (recorder document).start (.object []) >>= fun rec =>
          pure (kind.join,rec))
        (openDocument mode r >>= fun document => (recorder document).start (.object []) >>= fun rec =>
          pure (kind.join,rec)) := by
      refine (openDocument_alike mode r w outages).bind (openDocument_unless mode r w).1
        (fun document t => (started kind.join document t).1) ?_
      intro document document' t t' ht ht' hdocument hs
      have hr : (recorder document).MayLoseNumbers (recorder document') :=
        .intro none document' (.refl Eq.refl none) hdocument
      have hruns := openDocument_runs mode r w
      have hruns' := openDocument_runs mode r { w with outages := outages }
      rw [ht] at hruns
      rw [ht'] at hruns'
      refine (start_alike hr (.object []) hs (hruns'.trans hruns.symm)).bind (start_unless _ _ t).1
        (fun _ _ => Nat.le_refl _) ?_
      exact fun rec rec' t t' _ _ hrec ht _ => ⟨ht,.ok ⟨rfl,hrec⟩⟩
    unfold MatchesAt opening
    rw [exec_bind_ok hk,exec_bind_ok (asked hk)]
    exact opened
  · unfold MatchesAt opening
    rw [exec_bind_error hk,exec_bind_error (asked hk)]
    exact fun _ => ⟨hs,.error rfl⟩

/-- What walks of two runs leave: the same visits, ends that go together, and runs that are alike. -/
def Walks (p p' : Walked × Run) : Prop :=
  p'.1.visited = p.1.visited ∧ Agree Fault.MayLoseNumbers Eq p.1.outcome p'.1.outcome ∧ p.2.Alike p'.2

theorem visits_abreast (g : Graph Item) (t t' : Trip) :
    t.lost ≤ ((g.walk Visit.step visitLimit).run t).2.lost ∧
    (t.Alike t' → ((g.walk Visit.step visitLimit).run t).2.lost = t.lost →
      g.Abreast Trip.Alike Fault.MayLoseNumbers Visit.step t t' g.outset?
        ((g.walk Visit.step visitLimit).run t) ((g.walk Visit.step visitLimit).run t')) :=
  Graph.walk_abreast Visit.step_matches Fault.MayLoseNumbers.same g 100 t t'

theorem traverse_matches (g : Graph Item) {run run' : Run} (h : run.Alike run') :
    Matches World.lost World.Alike Fault.MayLoseNumbers Walks (traverse g run) (traverse g run') where
  le w := (visits_abreast g ⟨w,run⟩ ⟨w,run'⟩).1
  alike w w' hs hl := by
    obtain ⟨stops,stops',next,-,-,hstops,hv,hv',ht,ho⟩ :=
      (visits_abreast g ⟨w,run⟩ ⟨w',run'⟩).2 ⟨hs,h⟩ hl
    exact ⟨ht.world,.ok ⟨hv'.trans ((Stop.Alike.ids hstops).trans hv.symm),ho,ht.run⟩⟩

theorem failed_matches {rec rec' : Recorder} (hr : rec.MayLoseNumbers rec') (context : Option Item)
    {f f' : Fault} (hf : f.MayLoseNumbers f') :
    Matches World.lost World.Alike Fault.MayLoseNumbers Report.MayLoseNumbers
      (fail rec context f >>= throw) (fail rec' context f' >>= throw) := by
  refine failed_level Run.inStep_alike .same hr.level (fun message cause => ?_) context hf hf.reports
  obtain ⟨log,x,hl,hx⟩ := hr
  exact .run message none none cause hl hx

theorem finish_matches {rec rec' : Recorder} (hr : rec.MayLoseNumbers rec') {run run' : Run}
    (h : run.Alike run') :
    Matches World.lost World.Alike Fault.MayLoseNumbers Report.MayLoseNumbers (finish rec run)
      (finish rec' run') := by
  refine finish_level Run.inStep_alike .same hr.level (fun context last filename => ?_) h
  obtain ⟨log,x,hl,hx⟩ := hr
  exact .intro _ _ hl hx

theorem conclude_matches {rec rec' : Recorder} (hr : rec.MayLoseNumbers rec') (context : Item)
    {p p' : Walked × Run} (h : Walks p p') :
    Matches World.lost World.Alike Fault.MayLoseNumbers Report.MayLoseNumbers (conclude rec context p)
      (conclude rec' context p') := by
  obtain ⟨⟨visited,outcome⟩,run⟩ := p
  obtain ⟨⟨visited',outcome'⟩,run'⟩ := p'
  obtain ⟨-,ho,hrun⟩ := h
  cases ho with
  | ok => exact finish_matches hr hrun
  | error hf => exact failed_matches hr (some context) hf

theorem outset_alike {rec rec' : Recorder} (hr : rec.MayLoseNumbers rec') (workflow : Int)
    (format : String) (start : Ready) :
    (outset rec workflow format start).Alike (outset rec' workflow format start) :=
  .intro (some rec') (.some hr)

theorem proceed_matches {rec rec' : Recorder} (hr : rec.MayLoseNumbers rec') (workflow : Int)
    (format : String) (ready : Except Fault Ready) :
    Matches World.lost World.Alike Fault.MayLoseNumbers Report.MayLoseNumbers
      (proceed rec workflow format ready) (proceed rec' workflow format ready) := by
  cases ready with
  | error f => exact failed_matches hr none (.same f)
  | ok start =>
    have walked : Matches World.lost World.Alike Fault.MayLoseNumbers Report.MayLoseNumbers
        (traverse start.graph (outset rec workflow format start) >>= conclude rec start.context)
        (traverse start.graph (outset rec' workflow format start) >>= conclude rec' start.context) := by
      refine (traverse_matches start.graph (outset_alike hr workflow format start)).bind ?_ ?_
      · exact fun p => ⟨p,rfl,.of_eq .same (fun _ => rfl) _,.refl p.2⟩
      · exact fun p p' h => conclude_matches hr start.context h
    exact walked

/-- What a run of a request sets out with: the graph, and the run as its walk begins. -/
def departure (mode : Mode) (workflow : Int) (r : Request) : Work (Graph Item × Run) := do
  let (kind, rec) ← opening mode workflow r
  let start ← prepare mode workflow r kind (formatOf mode r kind)
  return (start.graph,outset rec workflow (formatOf mode r kind) start)

theorem run_cases (mode : Mode) {r : Request} {workflow : Int} (hr : r.workflow = some workflow)
    (w : World) :
    (∃ g s w₁ rec context, (departure mode workflow r).exec w = (.ok (g,s),w₁) ∧
      (run mode r).exec w = (traverse g s >>= conclude rec context).exec w₁) ∨
    (∃ f, (departure mode workflow r).exec w = (.error f,((run mode r).exec w).2) ∧
      ((run mode r).exec w).1 = .error f) ∨
    ∃ f w₁ rec, (departure mode workflow r).exec w = (.error f,w₁) ∧
      (run mode r).exec w = (fail rec none f >>= throw).exec w₁ := by
  rw [run_eq mode hr]
  unfold departure
  rw [exec_bind,exec_bind]
  rcases (opening mode workflow r).exec w with ⟨f | ⟨kind,rec⟩,w₁⟩
  · exact .inr (.inl ⟨f,rfl,rfl⟩)
  · simp only
    rw [exec_bind]
    unfold attempt
    rw [exec_bind,exec_caught]
    rcases (prepare mode workflow r kind (formatOf mode r kind)).exec w₁ with ⟨f | start,w₂⟩
    · exact .inr (.inr ⟨f,w₂,rec,rfl,rfl⟩)
    · exact .inl ⟨_,_,w₂,rec,start.context,rfl,rfl⟩

theorem prepared_matches (mode : Mode) (workflow : Int) (r : Request)
    {o o' : Option DocumentKind × Recorder} (h : o'.1 = o.1 ∧ o.2.MayLoseNumbers o'.2) :
    Matches World.lost World.Alike Eq (fun (d d' : Graph Item × Run) => d'.1 = d.1 ∧ d.2.Alike d'.2)
      (prepare mode workflow r o.1 (formatOf mode r o.1) >>= fun start =>
        pure (start.graph,outset o.2 workflow (formatOf mode r o.1) start))
      (prepare mode workflow r o'.1 (formatOf mode r o'.1) >>= fun start =>
        pure (start.graph,outset o'.2 workflow (formatOf mode r o'.1) start)) := by
  rw [h.1]
  refine Matches.next (Together.plain (prepare_unreported mode workflow r _ _).unlogged) ?_
  exact fun start => .pure ⟨rfl,outset_alike h.2 workflow _ start⟩

theorem departure_lost_le (mode : Mode) (workflow : Int) (r : Request) (w : World) :
    w.lost ≤ ((departure mode workflow r).exec w).2.lost :=
  le_bind (opening_unless mode workflow r w).1 fun o t =>
    (prepared_matches mode workflow r (o := o) ⟨rfl,.refl o.2⟩).le t

theorem lost_le_run (mode : Mode) {r : Request} {workflow : Int} (hr : r.workflow = some workflow)
    (w : World) :
    ((departure mode workflow r).exec w).2.lost ≤ ((run mode r).exec w).2.lost ∧
    ∀ d, ((departure mode workflow r).exec w).1 = .ok d →
      ((d.1.walk Visit.step visitLimit).run ⟨((departure mode workflow r).exec w).2,d.2⟩).2.lost ≤
        ((run mode r).exec w).2.lost := by
  rcases run_cases mode hr w with ⟨g,s,w₁,rec,context,hd,hrun⟩ | ⟨f,hd,-⟩ | ⟨f,w₁,rec,hd,hrun⟩ <;>
    rw [hd]
  · have hw := (visits_abreast g ⟨w₁,s⟩ ⟨w₁,s⟩).1
    have hle : ((g.walk Visit.step visitLimit).run ⟨w₁,s⟩).2.lost ≤ ((run mode r).exec w).2.lost := by
      rw [hrun]
      exact (conclude_matches (.refl rec) context (p := (_,_))
        ⟨rfl,.of_eq .same (fun _ => rfl) _,.refl _⟩).le _
    refine ⟨Nat.le_trans hw hle,?_⟩
    rintro d ⟨⟩
    exact hle
  · exact ⟨Nat.le_refl _,fun d hd => by cases hd⟩
  · rw [hrun]
    exact ⟨(failed_matches (.refl rec) none (.same f)).le w₁,fun d hd => by cases hd⟩

theorem departure_alike (mode : Mode) (workflow : Int) (r : Request) (w : World)
    (outages : List Bool) :
    MatchesAt World.lost World.Alike Eq (fun d d' => d'.1 = d.1 ∧ d.2.Alike d'.2)
      w { w with outages := outages } (departure mode workflow r) (departure mode workflow r) := by
  refine (opening_alike mode workflow r w outages).bind (opening_unless mode workflow r w).1 ?_ ?_
  · exact fun o t => (prepared_matches mode workflow r (o := o) ⟨rfl,.refl o.2⟩).le t
  · exact fun o o' t t' _ _ ho ht => (prepared_matches mode workflow r ho).alike t t' ht

def DepartAbreast (w w' : World) (d d' : Graph Item × Run) : Prop :=
  d'.1 = d.1 ∧ d.1.Abreast Trip.Alike Fault.MayLoseNumbers Visit.step ⟨w,d.2⟩ ⟨w',d'.2⟩ d.1.outset?
    ((d.1.walk Visit.step visitLimit).run ⟨w,d.2⟩) ((d.1.walk Visit.step visitLimit).run ⟨w',d'.2⟩)

/-- Two runs of a request, each in its world, that differ in no more than their audit trails and the
numbers of records that they report. -/
structure Parallel (mode : Mode) (r : Request) (w w' : World) : Prop where
  world : ((run mode r).exec w).2.Alike ((run mode r).exec w').2
  outcome : Agree Fault.MayLoseNumbers Report.MayLoseNumbers ((run mode r).exec w).1
    ((run mode r).exec w').1
  /-- Both runs walk or none does, and they visit the same nodes in the same contexts. -/
  walks : ∀ workflow, r.workflow = some workflow → Agree Eq
    (DepartAbreast ((departure mode workflow r).exec w).2 ((departure mode workflow r).exec w').2)
    ((departure mode workflow r).exec w).1 ((departure mode workflow r).exec w').1

/-- Runs leave worlds that differ in audit trails only, and end alike. -/
theorem run_alike (mode : Mode) (r : Request) (w : World) (outages : List Bool) :
    MatchesAt World.lost World.Alike Fault.MayLoseNumbers Report.MayLoseNumbers w
      { w with outages := outages } (run mode r) (run mode r) := by
  cases hr : r.workflow with
  | none =>
    have hs : w.Alike { w with outages := outages } := ⟨{ w.logs with outages := outages },rfl⟩
    unfold run
    rw [hr]
    exact fun _ => ⟨hs,.error (.same unnamed)⟩
  | some workflow =>
    have behind {o o' : Option DocumentKind × Recorder} (ho : o'.1 = o.1 ∧ o.2.MayLoseNumbers o'.2) :
        Matches World.lost World.Alike Fault.MayLoseNumbers Report.MayLoseNumbers
          (attempt (prepare mode workflow r o.1 (formatOf mode r o.1)) >>= fun ready =>
            proceed o.2 workflow (formatOf mode r o.1) ready)
          (attempt (prepare mode workflow r o'.1 (formatOf mode r o'.1)) >>= fun ready =>
            proceed o'.2 workflow (formatOf mode r o'.1) ready) := by
      have ready := (Together.plain (prepare_unreported mode workflow r o.1
        (formatOf mode r o.1)).unlogged).caught (E := Fault.MayLoseNumbers)
      rw [ho.1]
      exact ready.next fun ready => proceed_matches ho.2 workflow _ ready
    have opened := (opening_alike mode workflow r w outages).mono
      (fun _ _ => Fault.MayLoseNumbers.of_eq) fun _ _ h => h
    rw [run_eq mode hr]
    refine opened.bind (opening_unless mode workflow r w).1 ?_ ?_
    · exact fun o t => (behind (o := o) ⟨rfl,.refl o.2⟩).le t
    · exact fun o o' t t' _ _ ho ht => (behind ho).alike t t' ht

/-- Whichever writes to the audit trail fail, a run is parallel to the one that loses none. -/
theorem run_parallel (mode : Mode) (r : Request) (w : World) (outages : List Bool)
    (hlost : ((run mode r).exec w).2.lost = w.lost) :
    Parallel mode r w { w with outages := outages } := by
  obtain ⟨hworld,houtcome⟩ := run_alike mode r w outages hlost
  refine ⟨hworld,houtcome,fun workflow hr => ?_⟩
  have hle := departure_lost_le mode workflow r w
  obtain ⟨hle₁,hle₂⟩ := lost_le_run mode hr w
  obtain ⟨hs,hd⟩ := departure_alike mode workflow r w outages (by omega)
  generalize ((departure mode workflow r).exec { w with outages := outages }).1 = done at hd
  rcases hx : ((departure mode workflow r).exec w).1 with f | d <;> rw [hx] at hd
  · obtain ⟨f',rfl,hf⟩ := hd.of_error
    exact .error hf
  · obtain ⟨d',rfl,hg,hrun⟩ := hd.of_ok
    have hwalk := hle₂ d hx
    obtain ⟨hle₃,habreast⟩ := visits_abreast d.1 ⟨((departure mode workflow r).exec w).2,d.2⟩
      ⟨((departure mode workflow r).exec { w with outages := outages }).2,d'.2⟩
    refine .ok ⟨hg,habreast ⟨hs,hrun⟩ (Nat.le_antisymm ?_ hle₃)⟩
    exact Nat.le_trans hwalk (hlost ▸ hle)

def simple : Request := { workflow := some 1 }

/-- The simple request reports both records, and where all writes fail it reports none of them. -/
theorem run_parallel_simple :
    ((run .extraction simple).exec bare).2.lost = bare.lost ∧
      Parallel .extraction simple bare { bare with outages := [true,true,true] } ∧
      ∃ report report', report.MayLoseNumbers report' ∧
        ((run .extraction simple).exec bare).1 = .ok report ∧ report.executionLog = some 1 ∧
        ((run .extraction simple).exec { bare with outages := [true,true,true] }).1 = .ok report' ∧
        report'.executionLog = none := by
  have hlost : ((run .extraction simple).exec bare).2.lost = bare.lost := by decide +kernel
  have parallel := run_parallel .extraction simple bare [true,true,true] hlost
  have named : ((run .extraction simple).exec bare).1.toOption.map Report.executionLog =
      some (some 1) := by decide +kernel
  have unnamed : ((run .extraction simple).exec
      { bare with outages := [true,true,true] }).1.toOption.map Report.executionLog =
      some none := by decide +kernel
  have ends := parallel.outcome
  generalize ((run .extraction simple).exec bare).1 = done at ends named
  generalize ((run .extraction simple).exec { bare with outages := [true,true,true] }).1 = done'
    at ends unnamed
  refine ⟨hlost,parallel,?_⟩
  cases ends with
  | ok h => exact ⟨_,_,h,rfl,Option.some.inj named,rfl,Option.some.inj unnamed⟩
  | error => cases named

end Launch

end StepGraph
