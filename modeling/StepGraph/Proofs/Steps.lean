import StepGraph.Proofs.Effects
import StepGraph.Proofs.HeapProgram
import StepGraph.Proofs.Journal
import StepGraph.Run.Visit

/-!
How the program of a step is laid out. A program that keeps the context calls out, allocates and
records completed phases, and may refuse to go on after recording a failed one; of the containers
that were there it writes only documents of the step's configuration. A program that touches the
context ends in data faults only. The program of a step touches the context last, so a step that
fails as a step has not touched it yet.
-/
namespace StepGraph.Work

open Attempt

variable {α β : Type}

/-- A record-neutral program whose faults are data faults. -/
structure FailsOnData (p : Work α) : Prop extends RecordNeutral p where
  dataFault : Never (fun f => f.isDataFault = false) p

namespace FailsOnData

theorem bind {p : Work α} {f : α → Work β} (hp : FailsOnData p) (hf : ∀ x, FailsOnData (f x)) :
    FailsOnData (p >>= f) :=
  ⟨hp.toRecordNeutral.bind fun x => (hf x).toRecordNeutral,
    hp.dataFault.bind fun x => (hf x).dataFault⟩

theorem closed : Closed FailsOnData where
  pure x := ⟨RecordNeutral.closed.pure x,.pure x⟩
  bind := bind

theorem of {r : Except Fault α} (h : OnlyDataFault r) : FailsOnData (Work.of r) :=
  ⟨.of r,.of fun f hf => by simp [h f hf]⟩

theorem edit {e : Edit α} (h : Never (fun f => f.isDataFault = false) e) :
    FailsOnData (Work.edit e) := ⟨.edit e,fun w f hf => h w.store f hf⟩

theorem run' (f : Store → Store × α) : FailsOnData (Work.edit (Edit.run' f)) :=
  edit fun s f hf => by cases hf

theorem plant (v : Value) : FailsOnData (Work.plant v) := run' _

theorem newObject (es : Entries Item) : FailsOnData (Work.newObject es) := run' _

theorem store : FailsOnData Work.store := ⟨AppendOnly.store.toRecordNeutral,fun w f hf => by cases hf⟩

end FailsOnData

end StepGraph.Work

namespace StepGraph.Steps

open Attempt Work

variable {α β : Type} {run : Run} {node : Step Item}

structure Logged (node : Step Item) (P : String → Prop) (w w' : World) : Prop where
  steps : ∃ added, w'.db.stepLogs.rows = w.db.stepLogs.rows ++ added ∧
    ∀ row ∈ added, row.node = node.id ∧ P row.status
  executionLogs : w'.db.executionLogs = w.db.executionLogs
  lost_le : w.lost ≤ w'.lost

theorem Logged.refl (P : String → Prop) (w : World) : Logged node P w w :=
  ⟨⟨[],by simp⟩,rfl,Nat.le_refl _⟩

theorem Logged.trans {P : String → Prop} {w w' w'' : World} (h : Logged node P w w')
    (h' : Logged node P w' w'') : Logged node P w w'' := by
  obtain ⟨⟨added,ha,hp⟩,he,hl⟩ := h
  obtain ⟨⟨added',ha',hp'⟩,he',hl'⟩ := h'
  refine ⟨⟨added ++ added',?_,?_⟩,he'.trans he,Nat.le_trans hl hl'⟩
  · rw [ha',ha,List.append_assoc]
  · intro row hrow
    exact (List.mem_append.1 hrow).elim (hp row) (hp' row)

theorem Logged.mono {P Q : String → Prop} {w w' : World} (h : Logged node P w w')
    (hPQ : ∀ s, P s → Q s) : Logged node Q w w' := by
  obtain ⟨⟨added,ha,hp⟩,he,hl⟩ := h
  exact ⟨⟨added,ha,fun row hrow => ⟨(hp row hrow).1,hPQ _ (hp row hrow).2⟩⟩,he,hl⟩

theorem Logged.of_logs {P : String → Prop} {w w' : World} (h : w'.logs = w.logs) :
    Logged node P w w' := by
  have hs : w'.db.stepLogs = w.db.stepLogs := congrArg World.Logs.stepLogs h
  have he : w'.db.executionLogs = w.db.executionLogs := congrArg World.Logs.executionLogs h
  have hl : w'.lost = w.lost := congrArg World.Logs.lost h
  exact ⟨⟨[],by simp [hs]⟩,he,Nat.le_of_eq hl.symm⟩

def Permits (r : Except Fault α) (status : String) : Prop :=
  status = "completed" ∨ status = "failed" ∧ ∃ f, r = .error f

/-- Phases of the node are recorded, and failed ones only on the way to a fault. -/
def Journals (node : Step Item) (p : Work α) : Prop :=
  ∀ w, Logged node (Permits (p.exec w).1) w (p.exec w).2

theorem Journals.bind {p : Work α} {f : α → Work β} (hp : Journals node p)
    (hf : ∀ x, Journals node (f x)) : Journals node (p >>= f) := by
  intro w
  have h := hp w
  rw [exec_bind]
  rcases hw : p.exec w with ⟨e | x,w'⟩ <;> rw [hw] at h
  · exact h.mono fun s hs => hs.imp_right fun hs => ⟨hs.1,e,rfl⟩
  · refine (h.mono fun s hs => ?_).trans (hf x w')
    refine hs.elim .inl fun hs => ?_
    obtain ⟨-,e,he⟩ := hs
    cases he

theorem Journals.of_unlogged {p : Work α} (h : Unlogged p) : Journals node p :=
  fun w => .of_logs (h.logs w)

theorem logPhase_exec (run : Run) (node : Step Item) (phase status : String) (input output : Item)
    (error : Option String) (w : World) :
    Logged node (· = status) w
      ((run.logPhase node phase status input output error).exec w).2 ∧
    ((run.logPhase node phase status input output error).exec w).2.store = w.store ∧
    ∀ f, ((run.logPhase node phase status input output error).exec w).1 = .error f →
      f.isDataFault = true := by
  unfold Run.logPhase
  cases hr : run.recorder with
  | none => exact ⟨.refl _ w,rfl,fun f hf => by cases hf⟩
  | some r =>
    simp only
    have hm : moment.exec w = (.ok ((Time.Moment.ofEpoch? w.now).getD default),w) := rfl
    rw [exec_bind_ok hm]
    rw [exec_discard]
    rcases r.add_cases (.step node) _ w with ⟨-,hw⟩ | ⟨id,x,db,-,hw,row,rfl,-,-,hn,-,hs,-⟩ | ⟨hl,hc⟩
    · rw [hw]
      exact ⟨.refl _ w,rfl,fun f hf => by cases hf⟩
    · rw [hw]
      exact ⟨⟨⟨[row],rfl,by simp [hn,hs,Node.id]⟩,rfl,Nat.le_refl _⟩,rfl,fun f hf => by cases hf⟩
    · refine ⟨?_,?_,fun f hf => hc f (eq_error_of_map hf)⟩
      · rw [hl]
        exact ⟨⟨[],by simp [World.popped]⟩,rfl,Nat.le_succ _⟩
      · rw [hl]
        rfl

/-- The numbers that phases of a run are recorded under fit the records. -/
def Recordable (run : Run) : Prop :=
  ∀ r, run.recorder = some r → ∀ id, r.record? = some id ∨ r.workflow = some id → fitsRecord id = true

theorem logPhase_faults {input output : Item} {w : World} (hin : ∃ v, w.store.read input = .ok v)
    (hout : ∃ v, w.store.read output = .ok v) (hconfig : ∃ v, w.store.read node.config = .ok v)
    (phase status : String) (error : Option String) :
    FaultsAt w (fun f => f = .misuse .tooLarge ∧ ¬Recordable run)
      (run.logPhase node phase status input output error) := by
  intro f hf
  unfold Run.logPhase at hf
  cases hr : run.recorder with
  | none =>
    simp only [hr] at hf
    cases hf
  | some r =>
    simp only [hr] at hf
    have hm : moment.exec w = (.ok ((Time.Moment.ofEpoch? w.now).getD default),w) := rfl
    rw [exec_bind_ok hm,exec_discard] at hf
    have hheld := Recorder.add_faults ⟨hin,hout,hconfig⟩ f (eq_error_of_map hf)
    unfold heldAll at hheld
    split at hheld
    · cases hheld
    · rename_i hall
      cases hheld
      refine ⟨rfl,fun hrun => hall ?_⟩
      have hfits := hrun r hr
      have hlog : r.record?.all fitsRecord = true := by
        cases hid : r.record? with
        | none => rfl
        | some id => exact hfits id (.inl hid)
      have hworkflow : r.workflow.all fitsRecord = true := by
        cases hid : r.workflow with
        | none => rfl
        | some id => exact hfits id (.inr hid)
      have hduration : fitsRecord 0 = true := by decide
      simp [hlog,hworkflow,hduration]

/-- A program that has not touched the context. -/
inductive KeepsContext (run : Run) (node : Step Item) : {α : Type} → Work α → Prop
  | appendOnly {α : Type} {p : Work α} (h : AppendOnly p) : KeepsContext run node p
  | filing {α : Type} {p : Work α} (hk : node.kind? = some .imaging) (h : GrowsStore p) :
      KeepsContext run node p
  | phase (name : String) (input output : Item) :
      KeepsContext run node (run.logPhase node name "completed" input output)
  | refusal {α : Type} (name : String) (input output : Item) (error : Option String) (f : Fault) :
      KeepsContext run node (run.logPhase node name "failed" input output error >>= fun _ =>
        (throw f : Work α))
  | parts (scope : Scope) (filename : Value) :
      KeepsContext run node (formParts run node scope filename)
  | bind {α β : Type} {p : Work α} {f : α → Work β} (hp : KeepsContext run node p)
      (hf : ∀ x, KeepsContext run node (f x)) : KeepsContext run node (p >>= f)

/-- A program that may touch the context, and fails with data faults only. -/
inductive TouchesContext (run : Run) (node : Step Item) : {α : Type} → Work α → Prop
  | failsOnData {α : Type} {p : Work α} (h : FailsOnData p) : TouchesContext run node p
  | phase (name : String) (input output : Item) :
      TouchesContext run node (run.logPhase node name "completed" input output)
  | bind {α β : Type} {p : Work α} {f : α → Work β} (hp : TouchesContext run node p)
      (hf : ∀ x, TouchesContext run node (f x)) : TouchesContext run node (p >>= f)

/-- A program that keeps the context, with one behind it that may touch it. -/
inductive ContextLast (run : Run) (node : Step Item) : {α : Type} → Work α → Prop
  | keepsContext {α : Type} {p : Work α} (h : KeepsContext run node p) : ContextLast run node p
  | touchesContext {α : Type} {p : Work α} (h : TouchesContext run node p) : ContextLast run node p
  | bind {α β : Type} {p : Work α} {f : α → Work β} (hp : KeepsContext run node p)
      (hf : ∀ x, ContextLast run node (f x)) : ContextLast run node (p >>= f)

theorem KeepsContext.closed : Closed (KeepsContext run node) where
  pure x := .appendOnly (AppendOnly.closed.pure x)
  bind := .bind

theorem TouchesContext.closed : Closed (TouchesContext run node) where
  pure x := .failsOnData (FailsOnData.closed.pure x)
  bind := .bind

theorem entry_readOnly (run : Run) (k : String) : ReadOnly (run.entry k) :=
  ReadOnly.store.bind fun _ => ReadOnly.closed.pure _

theorem entry_callFree (run : Run) (k : String) : CallFree (run.entry k) :=
  ⟨(entry_readOnly run k).appendOnly,fun _ => rfl⟩

theorem entryValue_readOnly (run : Run) (k : String) : ReadOnly (run.entryValue k) :=
  (entry_readOnly run k).bind ReadOnly.read

theorem pdfOf_readOnly (run : Run) : ReadOnly (pdfOf run) :=
  (entryValue_readOnly run _).bind fun _ => ReadOnly.of _

theorem buildPart_in {C : {α : Type} → Work α → Prop} (hC : Closed C)
    (he : ∀ {α : Type} {p : Work α}, AppendOnly p → C p) (run : Run) (scope : Scope)
    (filename : Value)
    {item : Item} (hb : C (Work.edit (Http.JsonPart.build item scope))) :
    C (buildPart run scope filename item) := by
  have file (part name : Value) : C (filePart run part name filename) :=
    hC.bind (he (pdfOf_readOnly run).appendOnly) fun _ => hC.pure _
  have text (part name : Value) : C (textPart scope item part name) := by
    refine hC.bind ?_ fun _ => hC.pure _
    unfold partText
    split
    · exact hC.bind hb fun _ => hC.pure _
    · exact hC.bind (he (.of _)) fun _ => hC.pure _
  unfold buildPart
  refine hC.bind (he (.read item)) fun part => hC.bind (he (.of _)) fun name => ?_
  split
  · exact hC.pure _
  · split
    · exact hC.map (file part name) _
    · exact hC.map (text part name) _

theorem formParts_recordNeutral (run : Run) (node : Step Item) (scope : Scope) (filename : Value) :
    RecordNeutral (formParts run node scope filename) := by
  refine AppendOnly.store.toRecordNeutral.bind fun s => (RecordNeutral.of _).bind fun items => ?_
  refine .bind (RecordNeutral.closed.mapM fun item _ => ?_) fun _ => RecordNeutral.closed.pure _
  exact buildPart_in RecordNeutral.closed (fun h => h.toRecordNeutral) run scope filename (.edit _)

theorem formParts_spares (P : Nat → Prop) {roots : List Item} (run : Run)
    (hc : node.config ∈ roots) (scope : Scope) (filename : Value) :
    Keeps (World.OnStore (Store.Spares P roots)) (formParts run node scope filename) := by
  intro w hg
  unfold formParts
  have hs : Work.store.exec w = (.ok w.store,w) := rfl
  rw [exec_bind_ok hs]
  rcases hp : w.store.view.optionalParts (w.store.field node.config "formParts") with f | items
  · exact ⟨hg,fun _ _ => rfl⟩
  · obtain ⟨hP,Q,hQ,hr,hd⟩ := hg
    have hitems := hQ.hereditary.optionalParts (hQ.field (hr _ hc) "formParts") hp
    have hg' : w.store.Guarded P (items ++ roots) :=
      ⟨hP,Q,hQ,fun i hi => (List.mem_append.1 hi).elim (hitems i) (hr i),hd⟩
    have hk : Keeps (World.OnStore (Store.Spares P (items ++ roots)))
        (items.mapM (buildPart run scope filename) >>= fun built =>
          (pure (built.filterMap id) : Work _)) := by
      refine .bind (Keeps.closed.mapM fun item hitem => ?_) fun _ => Keeps.closed.pure _
      let R := World.OnStore (Store.Spares P (items ++ roots))
      refine buildPart_in (C := Keeps R) Keeps.closed
        (fun h => h.grows.mono fun _ _ hg => hg.spares) run scope filename fun w => ?_
      exact Http.JsonPart.build_spares (List.mem_append_left _ hitem) scope w.store
    obtain ⟨⟨hP',Q',hQ',hr',hd'⟩,ha⟩ := hk w hg'
    exact ⟨⟨hP',Q',hQ',fun i hi => hr' i (List.mem_append_right _ hi),hd'⟩,ha⟩

theorem KeepsContext.journals {p : Work α} (h : KeepsContext run node p) : Journals node p := by
  induction h with
  | appendOnly h => exact .of_unlogged h.unlogged
  | filing _ h => exact .of_unlogged h.unlogged
  | phase name input output =>
    exact fun w => (logPhase_exec run node name _ input output none w).1.mono fun s hs => .inl hs
  | refusal name input output error f =>
    intro w
    obtain ⟨hl,-,-⟩ := logPhase_exec run node name "failed" input output error w
    rw [exec_bind]
    rcases hw : (run.logPhase node name "failed" input output error).exec w with ⟨e | x,w'⟩ <;>
      rw [hw] at hl
    · exact hl.mono fun s hs => .inr ⟨hs,e,rfl⟩
    · exact hl.mono fun s hs => .inr ⟨hs,f,rfl⟩
  | parts scope filename =>
    exact .of_unlogged (formParts_recordNeutral run node scope filename).unlogged
  | bind _ _ ihp ihf => exact ihp.bind ihf

theorem KeepsContext.spares (P : Nat → Prop) {roots : List Item} (hc : node.config ∈ roots)
    {p : Work α}
    (h : KeepsContext run node p) : Keeps (World.OnStore (Store.Spares P roots)) p := by
  induction h with
  | appendOnly h => exact h.grows.mono fun _ _ hg => hg.spares
  | filing _ h => exact h.grows.mono fun _ _ hg => hg.spares
  | phase name input output =>
    intro w
    have hs := (logPhase_exec run node name "completed" input output none w).2.1
    unfold World.OnStore
    rw [hs]
    exact refl_of (Store.Spares P roots) w.store
  | refusal name input output error f =>
    intro w
    have hs := (logPhase_exec run node name "failed" input output error w).2.1
    unfold World.OnStore
    rw [exec_bind]
    rcases hw : (run.logPhase node name "failed" input output error).exec w with ⟨e | x,w'⟩ <;>
      rw [hw] at hs
    · rw [hs]
      exact refl_of (Store.Spares P roots) w.store
    · change Store.Spares P roots w.store w'.store
      rw [hs]
      exact refl_of (Store.Spares P roots) w.store
  | parts scope filename => exact formParts_spares P run hc scope filename
  | bind _ _ ihp ihf => exact ihp.bind ihf

theorem TouchesContext.dataFault {p : Work α} (h : TouchesContext run node p) :
    Never (fun f => f.isDataFault = false) p := by
  induction h with
  | failsOnData h => exact h.dataFault
  | phase name input output =>
    intro w f hf
    simp [(logPhase_exec run node name _ input output none w).2.2 f hf]
  | bind _ _ ihp ihf => exact ihp.bind ihf

theorem TouchesContext.journals {p : Work α} (h : TouchesContext run node p) : Journals node p := by
  induction h with
  | failsOnData h => exact .of_unlogged h.unlogged
  | phase name input output =>
    exact fun w => (logPhase_exec run node name _ input output none w).1.mono fun s hs => .inl hs
  | bind _ _ ihp ihf => exact ihp.bind ihf

theorem ContextLast.journals {p : Work α} (h : ContextLast run node p) : Journals node p := by
  induction h with
  | keepsContext h => exact h.journals
  | touchesContext h => exact h.journals
  | bind hp _ ihf => exact hp.journals.bind ihf

section Class

variable {C : {α : Type} → Work α → Prop}

/-- What holds of unlogged programs and of recording a phase holds of a program that keeps the
context, if sequences keep it. Only an imaging step changes records in any other way. -/
theorem KeepsContext.within (hC : Closed C)
    (hu : ∀ {α : Type} {p : Work α}, Unlogged p →
      (node.kind? ≠ some .imaging → RecordNeutral p) → C p)
    (hp : ∀ name status input output error, C (run.logPhase node name status input output error))
    {p : Work α} (h : KeepsContext run node p) : C p := by
  induction h with
  | appendOnly h => exact hu h.unlogged fun _ => h.toRecordNeutral
  | filing hk h => exact hu h.unlogged fun hn => absurd hk hn
  | phase name input output => exact hp name _ input output none
  | refusal name input output error f =>
    exact hC.bind (hp name _ input output error) fun _ =>
      hu (RecordNeutral.throw f).unlogged fun _ => .throw f
  | parts scope filename =>
    have h := formParts_recordNeutral run node scope filename
    exact hu h.unlogged fun _ => h
  | bind _ _ ihp ihf => exact hC.bind ihp ihf

theorem TouchesContext.within (hC : Closed C)
    (hu : ∀ {α : Type} {p : Work α}, Unlogged p →
      (node.kind? ≠ some .imaging → RecordNeutral p) → C p)
    (hp : ∀ name status input output error, C (run.logPhase node name status input output error))
    {p : Work α} (h : TouchesContext run node p) : C p := by
  induction h with
  | failsOnData h => exact hu h.unlogged fun _ => h.toRecordNeutral
  | phase name input output => exact hp name _ input output none
  | bind _ _ ihp ihf => exact hC.bind ihp ihf

theorem ContextLast.within (hC : Closed C)
    (hu : ∀ {α : Type} {p : Work α}, Unlogged p →
      (node.kind? ≠ some .imaging → RecordNeutral p) → C p)
    (hp : ∀ name status input output error, C (run.logPhase node name status input output error))
    {p : Work α} (h : ContextLast run node p) : C p := by
  induction h with
  | keepsContext h => exact h.within hC hu hp
  | touchesContext h => exact h.within hC hu hp
  | bind h _ ihf => exact hC.bind (h.within hC hu hp) ihf

end Class

/-- A step that fails as a step has left protected containers as they were. -/
theorem ContextLast.spares (P : Nat → Prop) {roots : List Item} (hc : node.config ∈ roots)
    {p : Work α}
    (h : ContextLast run node p) {w w' : World} {f : StepFailure}
    (hw : p.exec w = (.error (.step f),w')) : Store.Spares P roots w.store w'.store := by
  induction h generalizing w with
  | keepsContext h =>
    have hs := h.spares P hc w
    rw [hw] at hs
    exact hs
  | touchesContext h =>
    refine absurd rfl (h.dataFault w (.step f) ?_)
    rw [hw]
  | bind hp _ ihf =>
    have hs := hp.spares P hc w
    rcases exec_bind_eq_error hw with hw | ⟨x,w₁,hw₁,hw⟩
    · rw [hw] at hs
      exact hs
    · rw [hw₁] at hs
      exact trans_of (Store.Spares P roots) hs (ihf x hw)

end StepGraph.Steps
