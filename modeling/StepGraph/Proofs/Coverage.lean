import StepGraph.Proofs.Numbering
import StepGraph.Proofs.WalkLog

/-!
Which visits the audit trail covers. Where no write is lost, the records of a walk are groups, one
for each visited step, numbered upwards in the order of the visits. A group is empty just where
there was no telling whether to pass over the step, or where a step that reads messages has no field
to fill.
-/
namespace StepGraph

open Attempt

def Stop.visit? {σ κ : Type} (st : Stop σ κ) : Option (Step κ × σ) :=
  st.step?.map fun n => (n,st.before)

namespace Steps

variable {α β : Type} {run : Run} {node : Step Item}

def noted (w : World) : Nat := w.db.stepLogs.rows.length

/-- A program that ends with a result only behind a new record of a step. -/
def RecordsOrFails (p : Work α) : Prop :=
  Unless World.lost (fun w r w' => ∀ x, r = .ok x → noted w < noted w') p

def TakesNoRecord (p : Work α) : Prop := Unless World.lost (fun w _ w' => noted w ≤ noted w') p

theorem Journals.appends {p : Work α} (h : Journals node p) : TakesNoRecord p := by
  intro w
  obtain ⟨⟨added,ha,-⟩,-,hl⟩ := h w
  refine ⟨hl,fun _ => ?_⟩
  change w.db.stepLogs.rows.length ≤ (p.exec w).2.db.stepLogs.rows.length
  simp [ha]

theorem takesNoRecord_of_unlogged {p : Work α} (h : Work.Unlogged p) : TakesNoRecord p := fun w =>
  ⟨Nat.le_of_eq (congrArg World.Logs.lost (h.logs w)).symm,
    fun _ => Nat.le_of_eq (congrArg (fun l => l.stepLogs.rows.length) (h.logs w)).symm⟩

theorem RecordsOrFails.behind {p : Work α} {f : α → Work β} (hp : TakesNoRecord p)
    (hf : ∀ x, RecordsOrFails (f x)) :
    RecordsOrFails (p >>= f) := by
  refine (Unless.bind hp hf).mono ?_
  rintro w r w'' (⟨e,-,rfl⟩ | ⟨x,w',hle,hlt⟩) y hy
  · cases hy
  · exact Nat.lt_of_le_of_lt hle (hlt y hy)

theorem RecordsOrFails.front {p : Work α} {f : α → Work β} (hp : RecordsOrFails p)
    (hf : ∀ x, TakesNoRecord (f x)) :
    RecordsOrFails (p >>= f) := by
  refine (Unless.bind hp hf).mono ?_
  rintro w r w'' (⟨e,-,rfl⟩ | ⟨x,w',hlt,hle⟩) y hy
  · cases hy
  · exact Nat.lt_of_lt_of_le (hlt x rfl) hle

theorem RecordsOrFails.appendOnly {p : Work α} {f : α → Work β} (hp : Work.AppendOnly p)
    (hf : ∀ x, RecordsOrFails (f x)) :
    RecordsOrFails (p >>= f) := .behind (takesNoRecord_of_unlogged hp.unlogged) hf

def Recorded (run : Run) : Prop := ∃ rec id, run.recorder = some rec ∧ rec.record? = some id

theorem logPhase_recordsOrFails (h : Recorded run) (name status : String) (input output : Item)
    (error : Option String) : RecordsOrFails (run.logPhase node name status input output error) := by
  obtain ⟨rec,id,hrec,hid⟩ := h
  intro w
  unfold Run.logPhase
  rw [hrec]
  have hm : Work.moment.exec w = (.ok ((Time.Moment.ofEpoch? w.now).getD default),w) := rfl
  simp only
  rw [exec_bind_ok hm,exec_discard]
  rcases rec.add_cases (.step node) _ w with ⟨hn,-⟩ | ⟨run,x,db,-,hw,row,rfl,-⟩ | ⟨hl,-⟩
  · cases hn.symm.trans hid
  · rw [hw]
    refine ⟨Nat.le_refl _,fun _ _ _ => ?_⟩
    change w.db.stepLogs.rows.length < (w.db.stepLogs.rows ++ [row]).length
    simp
  · rw [hl]
    exact ⟨Nat.le_succ _,fun h => absurd h (Nat.succ_ne_self _)⟩

theorem resolveSource_recordsOrFails (h : Recorded run) (config : Value) :
    RecordsOrFails (resolveSource run node config) := by
  refine .appendOnly (scope_readOnly run).appendOnly fun scope => .appendOnly (.of _) fun source => ?_
  refine .appendOnly (.plant _) fun input => .appendOnly (.plant _) fun output => ?_
  exact (logPhase_recordsOrFails h _ _ _ _ _).front fun _ =>
    takesNoRecord_of_unlogged (Work.Unlogged.closed.pure source)

theorem aiDecision_recordsOrFails (h : Recorded run) : RecordsOrFails (aiDecision run node) := by
  refine .appendOnly (.read _) fun config => RecordsOrFails.front ?_ fun l =>
    (decided_contextLast run node config l).journals.appends
  exact lookUp_in (C := RecordsOrFails) run node config (resolveSource_recordsOrFails h config)
    fun hp hf => hp.front fun x => (hf x).journals.appends

theorem readMappings_recordsOrFails (h : Recorded run) (mappings : List Value) :
    RecordsOrFails (readMappings run node mappings) :=
  readMappings_in (C := RecordsOrFails) run node mappings .appendOnly fun _ _ _ hf =>
    (logPhase_recordsOrFails h _ _ _ _ _).front fun x => (hf x).journals.appends

def Unmapped (s : Store) (config : Item) : Prop :=
  ∃ v items, s.read config = .ok v ∧ (v.field "emailFieldMappings").optionalParts = .ok items ∧
    ∀ m ∈ items, m.isObject = false

theorem readEmail_unmapped (run : Run) {w : World} (h : Unmapped w.store node.config) :
    ∃ o w', (readEmail run node).exec w = (.ok o,w') ∧ w'.logs = w.logs := by
  obtain ⟨v,items,hv,hitems,hm⟩ := h
  have hread : (Work.read node.config).exec w = (.ok v,w) := by
    rw [← hv]
    rfl
  have hempty : (items.filter Value.isObject).isEmpty = true := by
    rw [List.isEmpty_iff,List.filter_eq_nil_iff]
    exact fun m hmem => by simp [hm m hmem]
  have hof : (Work.of (v.field "emailFieldMappings").optionalParts).exec w = (.ok items,w) := by
    rw [hitems]
    rfl
  unfold readEmail
  rw [exec_bind_ok hread,exec_bind_ok hof]
  simp only [hempty,if_true]
  exact ⟨_,_,rfl,rfl⟩

theorem readEmail_recordsOrFails (h : Recorded run) :
    Unless World.lost (fun w r w' => ¬ Unmapped w.store node.config →
      ∀ o, r = .ok o → noted w < noted w') (readEmail run node) := by
  intro w
  unfold readEmail
  have hread : (Work.read node.config).exec w = (w.store.read node.config,w) := rfl
  rw [exec_bind,hread]
  rcases hv : w.store.read node.config with f | v
  · exact ⟨Nat.le_refl _,fun _ _ o ho => by cases ho⟩
  · have hof : (Work.of (v.field "emailFieldMappings").optionalParts).exec w =
        ((v.field "emailFieldMappings").optionalParts,w) := rfl
    simp only
    rw [exec_bind,hof]
    rcases hitems : (v.field "emailFieldMappings").optionalParts with f | items
    · exact ⟨Nat.le_refl _,fun _ _ o ho => by cases ho⟩
    · simp only
      split
      · rename_i hempty
        refine ⟨Nat.le_refl _,fun _ hn => absurd ⟨v,items,hv,hitems,fun m hm => ?_⟩ hn⟩
        rw [List.isEmpty_iff,List.filter_eq_nil_iff] at hempty
        simpa using hempty m hm
      · have hnotes : RecordsOrFails (readMappings run node (items.filter Value.isObject)) :=
          readMappings_recordsOrFails h _
        exact ⟨(hnotes w).1,fun hl _ => (hnotes w).2 hl⟩

end Steps

namespace Visit

open Trip Steps

def Idle (n : Step Item) (t : Trip) : Prop :=
  n.kind? = some .readEmail ∧ Unmapped t.world.store n.config

/-- A visit leaves no record: there was no telling whether to pass over the step, or the step reads
messages and has no field to fill. -/
inductive Silent (n : Step Item) (t : Trip) : Prop
  | unsettled (f : Fault) (t₁ : Trip) (opened : (opening n).exec t = (.error f,t₁))
  | idle (t₁ : Trip) (opened : (opening n).exec t = (.ok none,t₁)) (idle : Idle n t₁)

theorem exec_perform {n : Step Item} {k : StepKind} (hk : n.kind? = some k) (t : Trip) :
    ((perform n).exec t).1 = ((k.perform t.run n).exec t.world).1 ∧
      ((perform n).exec t).2.world = ((k.perform t.run n).exec t.world).2 := by
  rw [perform_known hk]
  rcases (k.perform t.run n).exec t.world with ⟨f | o,w⟩ <;> exact ⟨rfl,rfl⟩

theorem perform_recordsOrFails (n : Step Item) :
    Unless lost (fun t r t' => ∀ id, t.log? = some id →
      n.kind?.any StepKind.recordsPhases = true → ¬ Idle n t →
        ∀ o, r = .ok o → noted t.world < noted t'.world) (perform n) := by
  intro t
  refine ⟨(perform_unless n t).1,fun hl id hid hphases hidle o ho => ?_⟩
  obtain ⟨rec,hrec,hid⟩ := Option.bind_eq_some_iff.1 hid
  have hrun : Recorded t.run := ⟨rec,id,hrec,hid⟩
  cases hk : n.kind? with
  | none =>
    rw [hk] at hphases
    cases hphases
  | some k =>
    obtain ⟨hr,hw⟩ := exec_perform hk t
    unfold lost at hl
    rw [hk] at hphases
    rw [hr] at ho
    rw [hw] at hl ⊢
    cases k with
    | aiDecision => exact (aiDecision_recordsOrFails hrun t.world).2 hl o ho
    | readEmail => exact (readEmail_recordsOrFails hrun t.world).2 hl (fun hu => hidle ⟨hk,hu⟩) o ho
    | _ => cases hphases

theorem noted_adds {added : List StepLog} {t t' : Trip} (h : Adds added t t') :
    noted t'.world = noted t.world + added.length := by
  unfold noted
  rw [h.steps,List.length_append]

theorem Worked.noted_le {n : Step Item} {t t' : Trip} {r : Except Fault Outcome}
    (h : Worked n t r t') : noted t.world ≤ noted t'.world := by
  obtain ⟨-,-,added,hadd,-⟩ := h
  unfold noted
  simp [hadd]

theorem settle_recordsOrFails (n : Step Item) :
    Unless lost (fun t r t' => ∀ id, t.log? = some id → ¬ Idle n t →
      ∀ handle, r = .ok handle → noted t.world < noted t'.world) (settle n) := by
  intro t
  refine ⟨(settle_unless n t).1,fun hl id hid hidle handle hr => ?_⟩
  obtain ⟨hle,hw⟩ := perform_unless n t
  obtain ⟨-,hphases⟩ := perform_recordsOrFails n t
  unfold settle at hr hl ⊢
  rw [exec_bind,exec_caught] at hr hl ⊢
  rcases hp : (perform n).exec t with ⟨f | o,t₁⟩ <;> rw [hp] at hle hw hphases hr hl <;>
    simp only at hle hw hphases hr hl ⊢
  · obtain ⟨hle',hf⟩ := failed_unless n f t₁
    obtain ⟨-,x,hx⟩ := hf (by omega) id ((hw (by omega)).log?.trans hid)
    cases hr.symm.trans hx
  · obtain ⟨hle',hd⟩ := performed_unless n o t₁
    have hw := hw (by omega)
    obtain ⟨-,⟨hk,ha⟩ | ⟨-,-,row,ha,-⟩⟩ := hd (by omega) id (hw.log?.trans hid)
    · rw [noted_adds ha]
      exact hphases (by omega) id hid hk hidle o rfl
    · rw [noted_adds ha]
      exact Nat.lt_succ_of_le hw.noted_le

theorem settle_idle {n : Step Item} {t : Trip} (h : Idle n t) :
    ∃ handle t', (settle n).exec t = (.ok handle,t') ∧ noted t'.world = noted t.world := by
  obtain ⟨hk,hu⟩ := h
  obtain ⟨o,w,hw,hlogs⟩ := readEmail_unmapped t.run hu
  have hp : (perform n).exec t = (.ok o,⟨w,t.run⟩) := by
    have hr : (StepKind.readEmail.perform t.run n).exec t.world = (.ok o,w) := hw
    rw [perform_known hk,hr]
    rfl
  have hd : (performed n o).exec ⟨w,t.run⟩ = (.ok (EdgeMap.handleOr o.handle),⟨w,t.run⟩) := by
    unfold performed recordOutcome
    rw [hk]
    rfl
  refine ⟨EdgeMap.handleOr o.handle,⟨w,t.run⟩,?_,congrArg (fun l => l.stepLogs.rows.length) hlogs⟩
  unfold settle
  rw [exec_bind,exec_caught,hp]
  exact hd

theorem noted_extends {rows : List StepLog} {t t' : Trip} (h : Extends rows t t') :
    noted t'.world = noted t.world + rows.length := by
  unfold noted
  rw [h,List.length_append]

theorem settle_silent (n : Step Item) :
    Unless lost (fun t _ t' => ∀ id, t.log? = some id →
      (noted t'.world = noted t.world ↔ Idle n t)) (settle n) := by
  intro t
  obtain ⟨hle,hsettles⟩ := settle_unless n t
  obtain ⟨-,hnotes⟩ := settle_recordsOrFails n t
  refine ⟨hle,fun hl id hid => ⟨fun hsame => ?_,fun hidle => ?_⟩⟩
  · obtain ⟨-,⟨rows,hext,hsettled⟩,-⟩ := hsettles hl id hid
    have hnotes := hnotes hl id hid
    rw [noted_extends hext] at hsame hnotes
    generalize (settle n).exec t = done at hsettled hnotes
    obtain ⟨r,t'⟩ := done
    by_contra hidle
    cases hsettled with
    | completed handle => exact absurd hsame (Nat.ne_of_gt (hnotes hidle handle rfl))
    | failed => simp at hsame
  · obtain ⟨handle,t',hdone,hsame⟩ := settle_idle hidle
    rw [hdone]
    exact hsame

/-- A visit leaves no record just where it is silent. -/
theorem step_silent (n : Step Item) :
    Unless lost (fun t _ t' => ∀ id, t.log? = some id →
      (noted t'.world = noted t.world ↔ Silent n t)) (step n) := by
  intro t
  obtain ⟨hle,hvisits⟩ := step_unless n t
  refine ⟨hle,fun hl id hid => ?_⟩
  obtain ⟨-,hrows,-⟩ := hvisits hl id hid
  obtain ⟨rows,hext,hacc⟩ := hrows ""
  cases hacc with
  | marker m node => cases node
  | skipped n' reason t₁ row node opened =>
    obtain rfl : n = n' := Node.step.inj node
    rw [noted_extends hext]
    refine ⟨fun h => by simp at h,fun h => ?_⟩
    cases h with
    | unsettled f t₂ opened' => cases opened.symm.trans opened'
    | idle t₂ opened' => cases opened.symm.trans opened'
  | disturbed n' f t₁ node opened =>
    obtain rfl : n = n' := Node.step.inj node
    rw [noted_extends hext]
    exact ⟨fun _ => .unsettled f t₁ opened,fun _ => rfl⟩
  | settled n' t₁ rows node opened =>
    obtain rfl : n = n' := Node.step.inj node
    -- the opening adds no record, so the visit is silent where its step is
    have hstep : (step n).exec t = (settle n).exec t₁ := by rw [step_eq,exec_bind_ok opened]
    obtain ⟨hle₁,ho⟩ := opening_unless n t
    obtain ⟨hle₂,hsilent⟩ := settle_silent n t₁
    rw [opened] at hle₁ ho
    rw [hstep] at hl ⊢
    simp only at hle₁ ho hl ⊢
    obtain ⟨hlog,hrows₁,-⟩ := (ho (by omega)).names hid
    have hnoted₁ : noted t₁.world = noted t.world := by
      unfold noted
      rw [hrows₁,List.append_nil]
    rw [← hnoted₁,hsilent (by omega) id hlog]
    refine ⟨.idle t₁ opened,fun hs => ?_⟩
    cases hs with
    | unsettled f t₂ opened' => cases opened.symm.trans opened'
    | idle t₂ opened' hidle =>
      cases opened.symm.trans opened'
      exact hidle

/-- A group of records tells a visit: all of them name its step, and there are none just where the
visit is silent. -/
structure Covers (v : Step Item × Trip) (rows : List StepLog) : Prop where
  own : ∀ row ∈ rows, row.node = v.1.id
  empty_iff : rows = [] ↔ Silent v.1 v.2

theorem Account.own {id : Int} {st : Stop Trip Item} {rows : List StepLog} (h : Account id st rows)
    {n : Step Item} (hn : st.node = .step n) : ∀ row ∈ rows, row.node = n.id := by
  cases h with
  | marker m node => cases hn.symm.trans node
  | skipped n' reason t row node opened passed own =>
    obtain rfl : n = n' := Node.step.inj (hn.symm.trans node)
    simpa using own
  | settled n' t rows node opened settled =>
    obtain rfl : n = n' := Node.step.inj (hn.symm.trans node)
    generalize st.exit = exit, st.after = after at settled
    cases settled with
    | completed handle t' rows own => exact own
    | failed f x t' phases last whole own => exact own
  | disturbed n' f t node => simp

/-- What the audit trail has of the steps that were visited one behind the other. -/
def Covered (visits : List (Step Item × Trip)) (t t' : Trip) : Prop :=
  ∀ id, t.log? = some id → t'.log? = some id ∧
    ∃ groups, Extends groups.flatten t t' ∧ List.Forall₂ Covers visits groups

theorem stop_covered {g : Graph Item} {st : Stop Trip Item} (hst : st.IsOf g step) :
    st.before.lost ≤ st.after.lost ∧
      (st.after.lost = st.before.lost → Covered st.visit?.toList st.before st.after) := by
  obtain ⟨hle,htold⟩ := stop_told hst
  refine ⟨hle,fun hl id hid => ?_⟩
  obtain ⟨hlog,⟨groups,hext,hacc⟩,-⟩ := htold hl id hid
  obtain ⟨rows,rest,hrows,hnil,rfl⟩ := List.forall₂_cons_left_iff.1 hacc
  cases hnil
  obtain ⟨target,node,before,after,exit⟩ := st
  obtain ⟨-,hv⟩ := hst
  refine ⟨hlog,?_⟩
  cases node with
  | start m =>
    obtain ⟨rfl,rfl⟩ : exit = .ok defaultHandle ∧ after = before := hv
    exact ⟨[],(List.append_nil _).symm,.nil⟩
  | step n =>
    refine ⟨[rows],hext,.cons ⟨hrows.own rfl,?_⟩ .nil⟩
    obtain ⟨-,hsilent⟩ := step_silent n before
    change (step n).exec before = (exit,after) at hv
    rw [hv] at hsilent
    refine Iff.trans ?_ (hsilent hl id hid)
    have hext : after.world.db.stepLogs.rows = before.world.db.stepLogs.rows ++ [rows].flatten := hext
    unfold noted
    simp [hext]

theorem trail_covered {g : Graph Item} {t t' : Trip} {target next : Option String}
    {stops : List (Stop Trip Item)} (h : g.Trail step t target stops t' next) :
    t.lost ≤ t'.lost ∧ (t'.lost = t.lost → Covered (stops.filterMap Stop.visit?) t t') := by
  induction h with
  | nil t target =>
    exact ⟨Nat.le_refl _,fun _ id hid => ⟨hid,[],(List.append_nil _).symm,.nil⟩⟩
  | @cons st stops t' next hst _ ih =>
    obtain ⟨hle,hone⟩ := stop_covered hst
    obtain ⟨hle',hrest⟩ := ih
    refine ⟨Nat.le_trans hle hle',fun hl id hid => ?_⟩
    obtain ⟨hlog,groups,hext,hcov⟩ := hone (by omega) id hid
    obtain ⟨hlog',groups',hext',hcov'⟩ := hrest (by omega) id hlog
    refine ⟨hlog',groups ++ groups',?_,?_⟩
    · unfold Extends at hext hext' ⊢
      rw [hext',hext,List.flatten_append,List.append_assoc]
    · have hvisits : (st :: stops).filterMap Stop.visit? =
          st.visit?.toList ++ stops.filterMap Stop.visit? := by
        cases hv : st.visit? <;> simp [hv]
      rw [hvisits]
      exact List.rel_append hcov hcov'

/-- The records that a walk adds, where none of its writes is lost, are groups of records: one for
each visited step in the order of the visits, numbered upwards from all that were there. Every
record of a group names the step, and a group is empty just where the visit is silent. -/
theorem walk_covered (g : Graph Item) (N : Nat) (t : Trip) (id : Int) (hlog : t.log? = some id)
    (hlost : ((g.walk step N).run t).2.lost = t.lost) :
    ∃ stops groups,
      ((g.walk step N).run t).1.visited = stops.map (·.node.id) ∧
      (∀ m, g.start = .ok m → ∃ next,
        g.Trail step t (g.outset m) stops ((g.walk step N).run t).2 next ∧
        g.Ending N N stops next ((g.walk step N).run t).1.outcome) ∧
      List.Forall₂ Covers (stops.filterMap Stop.visit?) groups ∧
      Extends groups.flatten t ((g.walk step N).run t).2 ∧
      groups.flatten.Pairwise (fun a b => a.id < b.id) ∧
      ∀ old ∈ t.world.db.stepLogs.rows, ∀ new ∈ groups.flatten, old.id < new.id := by
  cases hm : g.start with
  | error f =>
    have hv : ((g.walk step N).run t).1.visited = [] := by
      rw [Graph.walk_stopped hm step N]
      rfl
    refine ⟨[],[],hv,fun m hm => (by cases hm),.nil,?_,.nil,by simp⟩
    rw [Graph.walk_stopped hm step N]
    exact (List.append_nil _).symm
  | ok m =>
    obtain ⟨stops,next,ht,hv,-,he⟩ := Graph.walk_trail hm step N t
    obtain ⟨-,groups,hext,hcov⟩ := (trail_covered ht).2 hlost id hlog
    obtain ⟨added,hadded,hpairs,hlt⟩ := ht.keeps step_climbs
    obtain rfl : added = groups.flatten := List.append_cancel_left (hadded.symm.trans hext)
    refine ⟨stops,groups,hv,fun m' hm' => ?_,hcov,hext,hpairs,hlt⟩
    cases hm'
    exact ⟨next,ht,he⟩

def unread : Graph Item :=
  ⟨[("s",.start { id := "s" }),("a",.step { id := "a", type := "read_email", config := .cell 1 })],
    [{ id := "in", source := "s", target := "a" }]⟩

/-- The step is visited, and the group of its visit is empty. -/
theorem walk_covered_unread :
    withoutSftp.log? = some 1 ∧
      ((unread.walk step 1).run withoutSftp).2.lost = withoutSftp.lost ∧
      ((unread.walk step 1).run withoutSftp).1.visited = ["a"] ∧
      ∃ n t, n.id = "a" ∧ List.Forall₂ Covers [(n,t)] [[]] := by
  have hlost : ((unread.walk step 1).run withoutSftp).2.lost = withoutSftp.lost := by
    decide +kernel
  have hvisited : ((unread.walk step 1).run withoutSftp).1.visited = ["a"] := by decide +kernel
  have hrows : ((unread.walk step 1).run withoutSftp).2.world.db.stepLogs.rows.length = 0 := by
    decide +kernel
  obtain ⟨stops,groups,hv,ht,hcov,hext,-⟩ := walk_covered unread 1 withoutSftp 1 rfl hlost
  obtain ⟨next,ht,-⟩ := ht { id := "s" } rfl
  refine ⟨rfl,hlost,hvisited,?_⟩
  replace hv : ["a"] = stops.map (·.node.id) := hvisited.symm.trans hv
  obtain ⟨st,rfl⟩ : ∃ st, stops = [st] :=
    List.length_eq_one_iff.1 (by simpa using (congrArg List.length hv).symm)
  obtain ⟨-,htarget,hof,-⟩ := ht.cons_inv
  obtain ⟨target,node,before,after,exit⟩ := st
  obtain rfl : "a" = target := Option.some.inj htarget
  obtain rfl : _ = node := Option.some.inj hof.1
  obtain ⟨rows,rest,hrow,hnil,rfl⟩ := List.forall₂_cons_left_iff.1 hcov
  cases hnil
  have hlength : 0 = rows.length := by
    simpa [withoutSftp] using hrows.symm.trans (congrArg List.length hext)
  obtain rfl : rows = [] := List.length_eq_zero_iff.1 hlength.symm
  exact ⟨_,before,rfl,.cons hrow .nil⟩

end Visit

end StepGraph
