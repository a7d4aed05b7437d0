import StepGraph.Proofs.Steps
import StepGraph.Run.Launch

/-!
What comes before a walk. Loading the payload, computing its fields, reading the graph and seeding
the context leave the audit trail and all records alone, and none of their faults reports a run.
-/
namespace StepGraph

def Fault.reports : Fault → Bool
  | .run _ _ _ _ _ _ => true
  | _ => false

theorem Fault.reports_of_untroubled {f : Fault} (h : f.isWorkflowTrouble = false) :
    f.reports = false := by
  cases f <;> first | rfl | cases h

theorem Fault.reports_of_dataFault {f : Fault} (h : f.isDataFault = true) : f.reports = false :=
  reports_of_untroubled (untroubled_of_isDataFault h)

open Attempt Work

variable {α β ι : Type}

def ReportsNoRun (r : Except Fault α) : Prop := ∀ f, r = .error f → f.reports = false

namespace ReportsNoRun

theorem ok (x : α) : ReportsNoRun (.ok x : Except Fault α) := fun f hf => by cases hf

theorem error {f : Fault} (h : f.reports = false) : ReportsNoRun (.error f : Except Fault α) := by
  intro f' h'
  cases h'
  exact h

theorem bind {r : Except Fault α} {f : α → Except Fault β} (hr : ReportsNoRun r)
    (hf : ∀ x, ReportsNoRun (f x)) :
    ReportsNoRun (r >>= f) := by
  cases r with
  | error e => exact error (hr e rfl)
  | ok x => exact hf x

theorem mapM {f : ι → Except Fault β} (hf : ∀ i, ReportsNoRun (f i)) (is : List ι) :
    ReportsNoRun (is.mapM f) := by
  induction is with
  | nil => exact ok _
  | cons i is ih =>
    rw [List.mapM_cons]
    exact (hf i).bind fun _ => ih.bind fun _ => ok _

theorem foldlM {f : β → ι → Except Fault β} (hf : ∀ b i, ReportsNoRun (f b i)) (is : List ι) (b : β) :
    ReportsNoRun (is.foldlM f b) := by
  induction is generalizing b with
  | nil => exact ok _
  | cons i is ih => exact (hf b i).bind ih

theorem of_dataFault {r : Except Fault α} (h : OnlyDataFault r) : ReportsNoRun r :=
  fun f hf => Fault.reports_of_dataFault (h f hf)

end ReportsNoRun

/-- A record-neutral program none of whose faults reports a run. -/
structure Work.Unreported (p : Work α) : Prop extends RecordNeutral p where
  never : Never (fun f => f.reports = true) p

namespace Work.Unreported

theorem closed : Closed Unreported where
  pure x := ⟨RecordNeutral.closed.pure x,.pure x⟩
  bind hp hf :=
    ⟨hp.toRecordNeutral.bind fun x => (hf x).toRecordNeutral,hp.never.bind fun x => (hf x).never⟩

theorem bind {p : Work α} {f : α → Work β} (hp : Unreported p) (hf : ∀ x, Unreported (f x)) :
    Unreported (p >>= f) := closed.bind hp hf

theorem of {r : Except Fault α} (h : ReportsNoRun r) : Unreported (Work.of r) :=
  ⟨.of r,.of fun f hf => by simp [h f hf]⟩

theorem ofDataFault {r : Except Fault α} (h : OnlyDataFault r) : Unreported (Work.of r) :=
  of (ReportsNoRun.of_dataFault h)

theorem run' (f : Store → Store × α) : Unreported (Work.edit (Edit.run' f)) :=
  ⟨.edit _,fun w f hf => by cases hf⟩

theorem plant (v : Value) : Unreported (Work.plant v) := run' _

theorem newObject (es : Entries Item) : Unreported (Work.newObject es) := run' _

theorem store : Unreported Work.store := ⟨AppendOnly.store.toRecordNeutral,fun w f hf => by cases hf⟩

theorem get_bind {k : World → Work α} (hk : ∀ w, Unreported (k w))
    (hl : ∀ (w : World) (l : World.Logs), k (w.withLogs l) = k w) :
    Unreported (get >>= k) where
  toRecordNeutral := .get_bind (fun w => (hk w).toRecordNeutral) hl
  never w f hf := (hk w).never w f hf

theorem database_bind {k : Database → Work α} (hk : ∀ db, Unreported (k db))
    (hl : ∀ (w : World) (l : World.Logs), k (w.withLogs l).db = k w.db) :
    Unreported (Work.database >>= k) :=
  get_bind (k := fun w => k w.db) (fun w => hk w.db) hl

theorem attempt {p : Work α} {k : Except Fault α → Work β} {P : Except Fault α → Prop}
    (hp : RecordNeutral p) (hP : ∀ w, P (p.exec w).1) (hk : ∀ r, P r → Unreported (k r)) :
    Unreported (Work.attempt p >>= k) where
  unlogged l w := by
    change (k (p.exec (w.withLogs l)).1).exec (p.exec (w.withLogs l)).2 = _
    rw [hp.unlogged l w]
    exact (hk _ (hP w)).unlogged l _
  records w := ((hk _ (hP w)).records (p.exec w).2).trans (hp.records w)
  never w f hf := (hk _ (hP w)).never (p.exec w).2 f hf

theorem otherwise {c : Bool} {p : Work α} {f : Fault} (hp : Unreported p)
    (hf : c = false → f.reports = false) : Unreported (if c then p else throw f) := by
  cases c with
  | true => exact hp
  | false => exact ⟨.throw f,.throw (by simp [hf rfl])⟩

end Work.Unreported

namespace OnlyDataFault

theorem documentOr (v : Value) (s : String) : OnlyDataFault (Payload.documentOr v s) := by
  unfold Payload.documentOr
  split
  · exact ok _
  · exact error rfl
  · exact error rfl
  · exact ok _

theorem inline (raw : Value) (format : String) : OnlyDataFault (Payload.inline raw format) := by
  unfold Payload.inline
  split
  · exact ok _
  · split
    · exact ok _
    · split
      · exact ok _
      · exact documentOr _ _
  · exact ok _

theorem functionMappings (stored : Value) : OnlyDataFault (Enrich.functionMappings stored) := by
  have rest (v : Value) : OnlyDataFault (do
      return ((← v.optionalParts).filter Value.isObject).filter Enrich.isFunctionMapping) :=
    (optionalParts v).bind fun _ => ok _
  unfold Enrich.functionMappings
  split
  · exact (documentOr _ _).bind rest
  · exact rest _

end OnlyDataFault

namespace Launch

theorem storedDocument_readOnly (path : String) : ReadOnly (storedDocument path) := by
  have content (bucket key : String) : ReadOnly (Storage.read bucket key) := by
    refine ReadOnly.get_bind (fun w => (ReadOnly.of _).bind fun p => ?_) fun _ _ => rfl
    refine ReadOnly.get_bind (fun w => ?_) fun _ _ => rfl
    split
    · exact ReadOnly.closed.pure _
    · exact .throw _
  have text (bucket key : String) : ReadOnly (Storage.readText bucket key) := by
    refine (content bucket key).bind fun b => ?_
    split
    · exact ReadOnly.closed.pure _
    · exact .throw _
  refine (text _ _).bind fun s => ?_
  split
  · exact ReadOnly.closed.pure _
  · split
    · exact ReadOnly.closed.pure _
    · exact .throw _

theorem reports_of_kept {f : Fault} (h : leavesEmpty f = false) : f.reports = false := by
  cases f <;> first | rfl | cases h

theorem loadPayload_unreported (r : Request) (submitted : Item) (format : String) :
    Unreported (loadPayload r submitted format) := by
  unfold loadPayload
  split
  · refine .attempt (P := fun _ => True) (storedDocument_readOnly _).appendOnly.toRecordNeutral
      (fun _ => trivial)
      fun done _ => ?_
    split
    · exact .plant _
    · exact .otherwise (.newObject []) reports_of_kept
  · refine Unreported.store.bind fun s => ?_
    split
    · exact Unreported.closed.pure _
    · exact (Unreported.ofDataFault (.inline _ _)).bind fun v => .plant v

end Launch

namespace FieldFunction

theorem retry_appendOnly (again : Fault → Bool) {body : Work α} (h : AppendOnly body) (more : Nat) :
    AppendOnly (Attempt.retry again body more) where
  unlogged := by
    induction more with
    | zero => exact h.unlogged
    | succ more ih =>
      intro l w
      rw [exec_retry,exec_retry,h.unlogged l w]
      rcases body.exec w with ⟨f | x,w'⟩
      · simp only
        split
        · exact ih l w'
        · rfl
      · rfl
  grows := h.grows.retry again more
  records := h.records.retry again more

theorem ask_appendOnly (prompt : String) : AppendOnly (askOf completed prompt) :=
  (AppendOnly.complete _ _ _).bind fun _ => .of _

theorem lookup_appendOnly {γ : Type} (a : Access γ) (attempts : Int) (doc : γ) (record : Scope) :
    AppendOnly (lookup a attempts doc record) := by
  unfold lookup
  refine AppendOnly.get_bind (fun w => ?_) fun _ _ => rfl
  split
  · exact AppendOnly.closed.pure _
  · unfold lookupOf
    refine (AppendOnly.of _).bind fun address => ?_
    split
    · exact AppendOnly.closed.pure _
    · refine (AppendOnly.of _).bind fun kind => ?_
      refine (retry_appendOnly _ (ask_appendOnly _) _).bind fun reply => ?_
      simp only
      split
      · exact AppendOnly.closed.pure _
      · exact (AppendOnly.of _).bind fun _ => AppendOnly.closed.pure _

theorem evaluateAny_appendOnly {γ : Type} (a : Access γ) (attempts : Int) (doc : γ) (record : Scope) :
    AppendOnly (evaluateAny a attempts doc record) := by
  unfold evaluateAny
  refine (AppendOnly.of _).bind fun kind => ?_
  split
  · refine (lookup_appendOnly a attempts doc record).bind fun found => ?_
    split <;> exact AppendOnly.closed.pure _
  · exact .of _

def computed (attempts : Int) (found : Option Item) (record : Item) (mapping : Value) :
    Work (Option Item) := do
  let s ← Work.store
  match found.filter s.view.truthy with
  | none => return none
  | some logic =>
    if !(mapping.field "fieldName").truthy then return none
    return (← evaluateAny s.access attempts logic (← Work.scope record)).written? s

theorem applyOne_eq (attempts : Int) (functions : Library) (record : Item) (mapping : Value) :
    applyOne attempts functions record mapping =
      (do
        let found ← Work.of (functions.find (← Work.of (mapping.member "functionId")))
        match ← computed attempts found record mapping with
        | none => return false
        | some x =>
          writeField record (mapping.field "fieldName") x
          return true) := by
  unfold applyOne computed
  refine bind_congr fun key => bind_congr fun found => ?_
  rw [bind_assoc]
  refine bind_congr fun s => ?_
  cases found.filter s.view.truthy with
  | none => rfl
  | some logic =>
    simp only
    split
    · rfl
    · rw [bind_assoc]
      refine bind_congr fun scope => ?_
      rw [bind_assoc]
      exact bind_congr fun result => (pure_bind _ _).symm

theorem computed_appendOnly (attempts : Int) (found : Option Item) (record : Item) (mapping : Value) :
    AppendOnly (computed attempts found record mapping) := by
  unfold computed
  apply AppendOnly.store.bind
  intro s
  split
  · exact AppendOnly.closed.pure _
  · split
    · exact AppendOnly.closed.pure _
    · refine (AppendOnly.scope record).bind fun scope => ?_
      exact (evaluateAny_appendOnly _ _ _ _).bind fun result => AppendOnly.closed.pure _

theorem writeField_recordNeutral (record : Item) (path : Value) (x : Item) :
    RecordNeutral (writeField record path x) := by
  unfold writeField
  split
  · exact .edit _
  · exact .throw _
  · exact .throw _

theorem applyOne_recordNeutral (attempts : Int) (functions : Library) (record : Item) (m : Value) :
    RecordNeutral (applyOne attempts functions record m) := by
  rw [applyOne_eq]
  refine (RecordNeutral.of _).bind fun key => (RecordNeutral.of _).bind fun found => ?_
  refine (computed_appendOnly attempts found record m).toRecordNeutral.bind fun o => ?_
  split
  · exact RecordNeutral.closed.pure _
  · exact (writeField_recordNeutral _ _ _).bind fun _ => RecordNeutral.closed.pure _

theorem applyAll_recordNeutral (attempts : Int) (functions : Library) (mappings : List Value)
    (payload : Item) : RecordNeutral (applyAll attempts functions mappings payload) := by
  refine AppendOnly.store.toRecordNeutral.bind fun s => ?_
  refine (RecordNeutral.closed.mapM fun record _ => ?_).bind fun counts => RecordNeutral.closed.pure _
  refine AppendOnly.store.toRecordNeutral.bind fun s => ?_
  split
  · refine (RecordNeutral.closed.mapM fun m _ => ?_).bind fun _ => RecordNeutral.closed.pure _
    exact applyOne_recordNeutral attempts functions record m
  · exact RecordNeutral.closed.pure _

end FieldFunction

namespace Enrich

theorem library_appendOnly (mappings : List Value) : AppendOnly (library mappings) := by
  refine (AppendOnly.of _).bind fun keys => AppendOnly.database_bind (fun db => ?_) fun _ _ => rfl
  refine (AppendOnly.of _).bind fun rows => (AppendOnly.of _).bind fun _ => ?_
  exact AppendOnly.closed.mapM fun r _ => (AppendOnly.plant _).bind fun _ => AppendOnly.closed.pure _

theorem payload_unreported (kind : Option DocumentKind) (format : String) (x : Item) :
    Unreported (payload kind format x) := by
  unfold payload
  split
  · exact Unreported.closed.pure _
  · refine Unreported.store.bind fun s => ?_
    split
    · exact Unreported.closed.pure _
    · refine (Unreported.ofDataFault (.functionMappings _)).bind fun mappings => ?_
      split
      · exact Unreported.closed.pure _
      · refine .attempt (P := fun _ => True) ?_ (fun _ => trivial) fun done _ => ?_
        · refine (library_appendOnly _).toRecordNeutral.bind fun functions => ?_
          exact FieldFunction.applyAll_recordNeutral _ _ _ _
        · split
          · exact Unreported.closed.pure _
          · refine .otherwise (Unreported.closed.pure _) fun h => Fault.reports_of_untroubled ?_
            simpa using (Bool.or_eq_false_iff.1 h).2

end Enrich

namespace Graph

theorem told_reportsNoRun (what : String) (es : Entries Value) (r : Except Fault α) :
    ReportsNoRun (told what es r) := by
  unfold told
  split
  · exact .ok _
  · exact .error rfl
  · exact (ReportsNoRun.of_dataFault (.display _)).bind fun _ => .error rfl

theorem read_reportsNoRun (nodes edges : List Value) : ReportsNoRun (read nodes edges) := by
  have node (done : Entries (Node Value)) (v : Value) : ReportsNoRun (readNode done v) := by
    unfold readNode
    split
    · exact (told_reportsNoRun _ _ _).bind fun _ => .ok _
    · exact .error rfl
  have edge (v : Value) : ReportsNoRun (readEdge v) := by
    unfold readEdge
    split
    · exact told_reportsNoRun _ _ _
    · exact .error rfl
  exact (ReportsNoRun.foldlM node nodes []).bind fun _ =>
    (ReportsNoRun.mapM edge edges).bind fun _ => .ok _

theorem start_reportsNoRun (g : Graph Value) : ReportsNoRun g.start := by
  unfold start
  split
  · exact .ok _
  · exact .error rfl

theorem stored_unreported (workflow : Int) : Unreported (stored workflow) := by
  refine .database_bind (fun db => ?_) fun _ _ => rfl
  refine (Unreported.ofDataFault (.all _)).bind fun nodes => (Unreported.ofDataFault (.held _)).bind
    fun id => (Unreported.ofDataFault (.all _)).bind fun _ => ?_
  exact .of (read_reportsNoRun _ _)

end Graph

namespace Seed

theorem groupEntries_dataFault (g : GroupData) : OnlyDataFault (groupEntries g) := by
  unfold groupEntries
  split
  · split
    · exact .ok _
    · exact .error rfl
  · exact .ok _

theorem plantFields_unreported (es : Entries Value) : Unreported (plantFields es) :=
  Unreported.closed.mapM fun _ _ => (Unreported.plant _).bind fun _ => Unreported.closed.pure _

theorem groupFields_unreported (session : String) (order : Int) :
    Unreported (groupFields session order) := by
  refine .database_bind (fun db => ?_) fun _ _ => rfl
  refine (Unreported.ofDataFault (.all _)).bind fun rows => (Unreported.ofDataFault (.held _)).bind
    fun order => Unreported.bind ?_ fun layers => Unreported.closed.pure _
  exact .of (ReportsNoRun.mapM (fun g => .of_dataFault (groupEntries_dataFault g)) _)

theorem groupLayer_unreported (r : Request) : Unreported (groupLayer r) := by
  unfold groupLayer
  split
  · split
    · exact Unreported.closed.pure _
    · have fields := groupFields_unreported
      refine .attempt (P := ReportsNoRun) (fields _ _).toRecordNeutral (fun w f hf => ?_)
        fun done hdone => ?_
      · simpa using (fields _ _).never w f hf
      · split
        · exact plantFields_unreported _
        · rename_i f
          exact .otherwise (Unreported.closed.pure _) fun _ => hdone f rfl
  · exact Unreported.closed.pure _

theorem modeLayers_unreported (c : Source) : Unreported (modeLayers c) := by
  unfold modeLayers
  split
  · exact Unreported.closed.pure _
  · refine (Unreported.ofDataFault ?_).bind fun more => ?_
    · unfold workflowFields
      split
      · exact .ok _
      · split
        · exact .ok _
        · exact (OnlyDataFault.documentOr _ _).map _
      · exact .ok _
    · refine .get_bind (fun w => ?_) fun _ _ => rfl
      exact (plantFields_unreported more).bind fun _ => Unreported.closed.pure _

theorem build_unreported (c : Source) (hasRecords : Bool) : Unreported (build c hasRecords) := by
  refine Unreported.bind ?_ fun _ => Unreported.closed.pure _
  refine (modeLayers_unreported c).bind fun own => (plantFields_unreported _).bind fun context => ?_
  refine Unreported.store.bind fun s => ?_
  simp only
  split
  · exact (groupLayer_unreported _).bind fun _ => Unreported.closed.pure _
  · exact (Unreported.closed.pure _).bind fun _ => Unreported.closed.pure _

end Seed

namespace Launch

def furnish (workflow : Int) (c : Seed.Source) : Work Ready := do
  let graph ← Graph.stored workflow
  discard <| Work.of graph.start
  let seed ← Seed.build c true
  let context ← Work.edit (Edit.run' fun s => Context.create s seed)
  let graph ← Work.edit (Edit.run' fun s => graph.plant s)
  return ⟨graph,context⟩

theorem prepare_eq (mode : Mode) (workflow : Int) (r : Request) (kind : Option DocumentKind)
    (format : String) : prepare mode workflow r kind format =
      Work.plant r.extracted >>= fun submitted =>
        loadPayload r submitted format >>= fun payload =>
          if mode == .extraction then
            Enrich.payload kind format payload >>= fun _ =>
              furnish workflow ⟨mode,r,submitted,payload,format,kind⟩
          else furnish workflow ⟨mode,r,submitted,payload,format,kind⟩ := rfl

theorem furnish_unreported (workflow : Int) (c : Seed.Source) :
    Unreported (furnish workflow c) := by
  refine (Graph.stored_unreported workflow).bind fun graph => ?_
  refine (Unreported.closed.map (.of (Graph.start_reportsNoRun graph)) _).bind fun _ => ?_
  refine (Seed.build_unreported _ true).bind fun seed => (Unreported.run' _).bind fun context => ?_
  exact (Unreported.run' _).bind fun graph => Unreported.closed.pure _

/-- Preparing a run neither writes to the records nor reports a run. -/
theorem prepare_unreported (mode : Mode) (workflow : Int) (r : Request)
    (kind : Option DocumentKind) (format : String) :
    Unreported (prepare mode workflow r kind format) := by
  rw [prepare_eq]
  refine (Unreported.plant _).bind fun submitted => ?_
  refine (loadPayload_unreported r submitted format).bind fun payload => ?_
  have rest := furnish_unreported workflow ⟨mode,r,submitted,payload,format,kind⟩
  split
  · exact (Enrich.payload_unreported kind format payload).bind fun _ => rest
  · exact rest

end Launch

end StepGraph
