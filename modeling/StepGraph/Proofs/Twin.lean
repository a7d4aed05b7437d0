import Mathlib.Data.List.Forall2
import StepGraph.Proofs.OwnRun
import StepGraph.Proofs.VisitInStep

/-!
One run in two worlds whose audit trails hold the records of other runs as well. The run has records
of its own in both, under numbers that may differ; what it does is the same in both worlds, and its
records keep the same content.
-/
namespace StepGraph

open Attempt Work

/-- A run's record apart from its own number and the number of the document's record. -/
def ExecutionLog.content (row : ExecutionLog) : ExecutionLog :=
  { row with id := 0, extractionLog := row.extractionLog.map fun _ => 0 }

/-- A step's record apart from its number and the number of the run's record. -/
def StepLog.content (row : StepLog) : StepLog := { row with id := 0, run := 0 }

namespace ExecutionLog.Blind

variable {f : ExecutionLog → ExecutionLog}

theorem content (hf : Blind f) {row row' : ExecutionLog} (h : row'.content = row.content) :
    (f row').content = (f row).content := by
  have blank (row : ExecutionLog) : (f row).content = f row.content := by
    rw [hf.numbers row]
    exact (hf row 0 (row.extractionLog.map fun _ => 0)).symm
  rw [blank,blank,h]

end ExecutionLog.Blind

/-- Two runs whose records have the same content, each among the records of runs and of steps. -/
structure SameRows (runs runs' : Table ExecutionLog) (steps steps' : Table StepLog)
    (id id' : Int) : Prop where
  run : Option.Rel (fun row row' => row'.content = row.content) (runs.get? id) (runs'.get? id')
  steps : (steps'.stepsOf id').map StepLog.content = (steps.stepsOf id).map StepLog.content

namespace SameRows

variable {runs runs' : Table ExecutionLog} {steps steps' : Table StepLog} {id id' : Int}

theorem fresh {row row' : ExecutionLog} (hid : row.id = runs.nextId) (hid' : row'.id = runs'.nextId)
    (hc : row'.content = row.content) (hs : steps.stepsOf runs.nextId = [])
    (hs' : steps'.stepsOf runs'.nextId = []) :
    SameRows { runs with rows := runs.rows ++ [row] } { runs' with rows := runs'.rows ++ [row'] }
      steps steps' runs.nextId runs'.nextId where
  run := by
    rw [runs.get?_concat hid,runs'.get?_concat hid']
    exact .some hc
  steps := by rw [hs,hs']

theorem add_step (h : SameRows runs runs' steps steps' id id') {row row' : StepLog}
    (hrow : row.run = id) (hrow' : row'.run = id') (hc : row'.content = row.content) :
    SameRows runs runs' { steps with rows := steps.rows ++ [row] }
      { steps' with rows := steps'.rows ++ [row'] } id id' where
  run := h.run
  steps := by
    have hadd {t : Table StepLog} {row : StepLog} {id : Int} (hrow : row.run = id) :
        ({ t with rows := t.rows ++ [row] } : Table StepLog).stepsOf id = t.stepsOf id ++ [row] := by
      simp [Table.stepsOf,hrow]
    rw [hadd hrow,hadd hrow',List.map_append,List.map_append,h.steps]
    exact congrArg (_ ++ [·]) hc

theorem change (h : SameRows runs runs' steps steps' id id') {f : ExecutionLog → ExecutionLog}
    (hf : ExecutionLog.Blind f) :
    SameRows (runs.update id f) (runs'.update id' f) steps steps' id id' where
  run := by
    have hrun := h.run
    rw [Table.get?_update runs id hf.id_eq,Table.get?_update runs' id' hf.id_eq]
    generalize runs.get? id = row at hrun
    generalize runs'.get? id' = row' at hrun
    cases hrun with
    | none => exact .none
    | some h => exact .some (hf.content h)
  steps := h.steps

end SameRows

namespace World

/-- Two audit trails that are the same to a run, but for the records of others: the same writes to
them fail, and where the run has a record of its own, its records have the same content. -/
structure Logs.Twin (own own' : Option Int) (l l' : World.Logs) : Prop where
  outages : l'.outages = l.outages
  lost : l'.lost = l.lost
  executionLogs : l'.executionLogs.present = l.executionLogs.present
  stepLogs : l'.stepLogs.present = l.stepLogs.present
  extractionLogs : l'.extractionLogs.present = l.extractionLogs.present
  rows : Option.Rel (SameRows l.executionLogs l'.executionLogs l.stepLogs l'.stepLogs) own own'

/-- Two worlds that are the same to a run, but for the records of others. -/
def Twin (own own' : Option Int) (w w' : World) : Prop :=
  ∃ l, w' = w.withLogs l ∧ w.logs.Twin own own' l

namespace Twin

variable {own own' : Option Int} {w w' : World}

theorem popped (h : w.Twin own own' w') : w.popped.Twin own own' w'.popped := by
  obtain ⟨l,rfl,h⟩ := h
  exact ⟨{ l with outages := l.outages.tail },rfl,
    { h with outages := congrArg List.tail h.outages, rows := h.rows }⟩

theorem lose (h : w.Twin own own' w') :
    World.Twin own own' { w with lost := w.lost + 1 } { w' with lost := w'.lost + 1 } := by
  obtain ⟨l,rfl,h⟩ := h
  exact ⟨{ l with lost := l.lost + 1 },rfl,
    { h with lost := congrArg (· + 1) h.lost, rows := h.rows }⟩

end Twin

end World

namespace Work

variable {α β γ δ ι κ : Type} {P : α → β → World → World → Prop} {w w' : World}

inductive LookedAtAlike (G : ι → κ → Prop) : Except Fault ι → Except Fault κ → Prop
  | ok {x : ι} {y : κ} (h : G x y) : LookedAtAlike G (.ok x) (.ok y)
  | same (f : Fault) : LookedAtAlike G (.error f) (.error f)
  | unheard {f f' : Fault} (h : f.isHarmless = true) (h' : f'.isHarmless = true) :
      LookedAtAlike G (.error f) (.error f')

theorem LookedAtAlike.refl (r : Except Fault ι) : LookedAtAlike Eq r r := by
  cases r with
  | ok x => exact .ok rfl
  | error f => exact .same f

/-- Two log writes at two worlds: both fault and change nothing, or both change records. -/
inductive WriteAlike (P : α → β → World → World → Prop) (w w' : World) (p : Work α) (q : Work β) :
    Prop
  | fault {f f' : Fault} (hp : p.exec w = (.error f,w)) (hq : q.exec w' = (.error f',w'))
      (h : f' = f ∨ f.isHarmless = true ∧ f'.isHarmless = true)
  | done {x : α} {y : β} {db db' : Database} (hp : p.exec w = (.ok x,{ w with db := db }))
      (hq : q.exec w' = (.ok y,{ w' with db := db' }))
      (h : P x y { w with db := db } { w' with db := db' })

namespace WriteAlike

variable {u : Work ι} {v : Work κ} {f : ι → Work α} {g : κ → Work β}

theorem look {G : ι → κ → Prop} {r : Except Fault ι} {r' : Except Fault κ}
    (hu : u.exec w = (r,w)) (hv : v.exec w' = (r',w')) (hr : LookedAtAlike G r r')
    (h : ∀ x y, r = .ok x → r' = .ok y → G x y → WriteAlike P w w' (f x) (g y)) :
    WriteAlike P w w' (u >>= f) (v >>= g) := by
  cases hr with
  | same e => exact .fault (exec_bind_error hu f) (exec_bind_error hv g) (.inl rfl)
  | unheard he he' => exact .fault (exec_bind_error hu f) (exec_bind_error hv g) (.inr ⟨he,he'⟩)
  | ok hG =>
    cases h _ _ rfl rfl hG with
    | fault hp hq h => exact .fault ((exec_bind_ok hu f).trans hp) ((exec_bind_ok hv g).trans hq) h
    | done hp hq h => exact .done ((exec_bind_ok hu f).trans hp) ((exec_bind_ok hv g).trans hq) h

theorem same {v : Work ι} {g : ι → Work β} {r : Except Fault ι} (hu : u.exec w = (r,w))
    (hv : v.exec w' = (r,w')) (h : ∀ x, WriteAlike P w w' (f x) (g x)) :
    WriteAlike P w w' (u >>= f) (v >>= g) :=
  look hu hv (.refl r) fun x _ _ _ hxy => hxy ▸ h x

theorem set {db db' : Database} {x : α} {y : β} (h : P x y { w with db := db } { w' with db := db' }) :
    WriteAlike P w w' (setDatabase db >>= fun _ => pure x)
      (setDatabase db' >>= fun _ => pure y) := .done rfl rfl h

end WriteAlike

inductive WrittenAlike (own own' : Option Int) (P : α → β → World → World → Prop) :
    Except Fault (Option α) × World → Except Fault (Option β) × World → Prop
  | kept {x : α} {y : β} {v v' : World} (h : P x y v v') :
      WrittenAlike own own' P (.ok (some x),v) (.ok (some y),v')
  | gone {v v' : World} (h : v.Twin own own' v') : WrittenAlike own own' P (.ok none,v) (.ok none,v')
  | fault (f : Fault) {v v' : World} (h : v.Twin own own' v') :
      WrittenAlike own own' P (.error f,v) (.error f,v')

/-- The two writes meet the same outages, and come about in both worlds or in neither. -/
theorem logWrite_twin {own own' : Option Int} {p : Work α} {q : Work β} (hw : w.Twin own own' w')
    (h : w.popped.Twin own own' w'.popped → WriteAlike P w.popped w'.popped p q) :
    WrittenAlike own own' P ((logWrite p).exec w) ((logWrite q).exec w') := by
  have hout : w'.outages = w.outages := by
    obtain ⟨l,rfl,hl⟩ := hw
    exact hl.outages
  have hpop := hw.popped
  rw [exec_logWrite,exec_logWrite,exec_exposed,exec_exposed,hout]
  cases w.outages.headD false with
  | true => exact .gone hpop.lose
  | false =>
    simp only [Bool.false_eq_true,if_false]
    rw [exec_bestEffort,exec_bestEffort]
    cases h hpop with
    | done hp hq h =>
      rw [hp,hq]
      exact .kept h
    | @fault f f' hp hq h =>
      rw [hp,hq]
      rcases h with rfl | ⟨hf,hf'⟩
      · cases hf : f'.isHarmless <;> simp only [hf,Bool.false_eq_true,if_false,if_true]
        · exact .fault _ hpop.lose
        · exact .gone hpop.lose
      · simp only [hf,hf',if_true]
        exact .gone hpop.lose

theorem WrittenAlike.discarded {own own' : Option Int} {a : Except Fault (Option α) × World}
    {b : Except Fault (Option β) × World}
    (h : WrittenAlike own own' (fun _ _ v v' => v.Twin own own' v') a b) :
    a.2.Twin own own' b.2 ∧ Agree Eq Eq (a.1.map fun _ => ()) (b.1.map fun _ => ()) := by
  cases h with
  | kept h => exact ⟨h,.ok rfl⟩
  | gone h => exact ⟨h,.ok rfl⟩
  | fault f h => exact ⟨h,.error rfl⟩

theorem twin_plain {own own' : Option Int} {p : Work α} (h : Unlogged p) :
    Matches (fun _ => 0) (World.Twin own own') Eq Eq p p where
  le _ := Nat.le_refl _
  alike w w' := by
    rintro ⟨l,rfl,hl⟩ -
    rw [h l w]
    refine ⟨⟨l,rfl,?_⟩,.of_eq (fun _ => rfl) (fun _ => rfl) _⟩
    rw [h.logs w]
    exact hl

theorem twin_forLog {own own' : Option Int} {p : Work α} (h : Unlogged p) :
    Matches (fun _ => 0) (World.Twin own own') Eq Eq (forLog p) (forLog p) where
  le _ := Nat.le_refl _
  alike w w' hw _ := by
    obtain ⟨hw,hr⟩ := (twin_plain h).alike w w' hw rfl
    rw [exec_forLog,exec_forLog]
    rcases hx : p.exec w with ⟨e | x,w₁⟩ <;> rcases hx' : p.exec w' with ⟨e' | x',w₁'⟩ <;>
      rw [hx,hx'] at hw hr <;> cases hr.eq
    · exact ⟨hw.lose,.error rfl⟩
    · exact ⟨hw,.ok rfl⟩

end Work

def Fit (i j : Int) : Prop := fitsRecord i = true ∧ fitsRecord j = true

theorem heldAll_fit {is js : List (Option Int)}
    (h : List.Forall₂ (fun i j => i = j ∨ Option.Rel Fit i j) is js) : heldAll is = heldAll js := by
  have hall : (is.all fun i => i.all fitsRecord) = js.all fun i => i.all fitsRecord := by
    induction h with
    | nil => rfl
    | cons h _ ih =>
      rw [List.all_cons,List.all_cons,ih]
      rcases h with rfl | h
      · rfl
      · cases h with
        | none => rfl
        | some h => rw [Option.all_some,Option.all_some,h.1,h.2]
  unfold heldAll
  rw [hall]

theorem Table.all_lookedAtAlike {ρ : Type} {t t' : Table ρ} (h : t'.present = t.present) :
    LookedAtAlike (fun _ _ => True) t.all t'.all := by
  unfold Table.all
  rw [h]
  split
  · exact .ok trivial
  · exact .same _

theorem Table.find_lookedAtAlike {ρ : Type} [Numbered ρ] {t t' : Table ρ} (h : t'.present = t.present)
    {id id' : Int} (hid : Fit id id') :
    LookedAtAlike (fun x y => x = t.get? id ∧ y = t'.get? id') (t.find id) (t'.find id') := by
  unfold Table.find Table.all held
  rw [h,if_pos hid.1,if_pos hid.2]
  split
  · exact .ok ⟨rfl,rfl⟩
  · exact .same _

namespace Recorder

inductive Twin (r : Recorder) : Recorder → Prop
  | intro (log extractionLog : Option Int)
      (hl : Option.Rel (fun i j => Fit i j ∧ i ≠ 0 ∧ j ≠ 0) r.log log)
      (hx : Option.Rel Fit r.extractionLog extractionLog) :
      Twin r { r with log := log, extractionLog := extractionLog }

variable {r r' : Recorder}

theorem Twin.record? (h : r.Twin r') : Option.Rel Fit r.record? r'.record? := by
  obtain ⟨log,x,hl,-⟩ := h
  unfold Recorder.record?
  generalize r.log = before at hl
  cases hl with
  | none => exact .none
  | some h =>
    obtain ⟨hfit,hi,hj⟩ := h
    simp only [Option.filter,bne_iff_ne,ne_eq,hi,hj,not_false_eq_true,if_true]
    exact .some hfit

theorem newStep_twin (hr : r.Twin r') {run run' : Int} (hrun : Fit run run') (n : Node Item)
    (e : LogEntry) {w w' : World} (hw : w.Twin (some run) (some run') w') :
    WriteAlike (fun _ _ v v' => v.Twin (some run) (some run') v') w w' (r.newStep run n e)
      (r'.newStep run' n e) := by
  obtain ⟨log,x,-,-⟩ := hr
  obtain ⟨l,rfl,hl⟩ := hw
  let G (db db' : Database) : Prop := db = w.db ∧ db' = (w.withLogs l).db
  refine .look (G := G) (u := database) (v := database) rfl rfl (.ok ⟨rfl,rfl⟩) ?_
  rintro db db' - - ⟨rfl,rfl⟩
  refine .look rfl rfl (Table.all_lookedAtAlike hl.stepLogs) fun _ _ _ _ _ => ?_
  have hheld : heldAll [some run,r.workflow,e.duration] = heldAll [some run',r.workflow,e.duration] :=
    heldAll_fit (.cons (.inr (.some hrun)) (.cons (.inl rfl) (.cons (.inl rfl) .nil)))
  refine .same rfl (congrArg (fun x => (x,_)) hheld.symm) fun _ => ?_
  refine .same rfl rfl fun _ => .same rfl rfl fun _ => .same rfl rfl fun _ => ?_
  refine .same rfl rfl fun _ => .same rfl rfl fun _ => .same rfl rfl fun _ => ?_
  refine .set ⟨{ l with stepLogs := _ },rfl,{ hl with rows := .some ?_ }⟩
  cases hl.rows with
  | some h => exact h.add_step rfl rfl rfl

theorem changeRecord_twin {id id' : Int} (hid : Fit id id') (context : Option Value)
    {f : ExecutionLog → ExecutionLog} (hf : ExecutionLog.Blind f) {w w' : World}
    (hw : w.Twin (some id) (some id') w') : WriteAlike (fun _ _ v v' =>
      v.Twin (some id) (some id') v') w w' (changeRecord id context f)
      (changeRecord id' context f) := by
  obtain ⟨l,rfl,hl⟩ := hw
  let G (db db' : Database) : Prop := db = w.db ∧ db' = (w.withLogs l).db
  refine .look (G := G) (u := database) (v := database) rfl rfl (.ok ⟨rfl,rfl⟩) ?_
  rintro db db' - - ⟨rfl,rfl⟩
  refine .look rfl rfl (Table.find_lookedAtAlike hl.executionLogs hid) ?_
  rintro found found' - - ⟨hfound,hfound'⟩
  cases hl.rows with
  | some h =>
    have hrun : Option.Rel _ found found' := hfound ▸ hfound' ▸ h.run
    cases hrun with
    | none =>
      have hharmless (i : Int) : (missingRecord i).isHarmless = true := rfl
      exact .fault rfl rfl (.inr ⟨hharmless id,hharmless id'⟩)
    | some =>
      refine .same (r := context.mapM Value.kept) rfl rfl fun c => ?_
      refine .same (u := moment) (v := moment) rfl rfl fun now => ?_
      refine .done rfl rfl ⟨{ l with executionLogs := _ },rfl,{ hl with rows := .some ?_ }⟩
      refine h.change fun row id extractionLog => ?_
      simp only [hf row id extractionLog]

theorem add_twin (hr : r.Twin r') (n : Node Item) (e : LogEntry) :
    Matches (fun _ => 0) (World.Twin r.record? r'.record?) Eq Eq
      (discard (r.add n e) : Work Unit) (discard (r'.add n e)) where
  le _ := Nat.le_refl _
  alike w w' hw _ := by
    have hrec := hr.record?
    rw [exec_discard,exec_discard]
    unfold add
    generalize r.record? = own at hrec hw
    generalize r'.record? = own' at hrec hw
    cases hrec with
    | none => exact ⟨hw,.ok rfl⟩
    | some hrun => exact (logWrite_twin hw (newStep_twin hr hrun n e)).discarded

theorem change_twin (hr : r.Twin r') (context : Option Value)
    {f : Time.Moment → ExecutionLog → ExecutionLog} (hf : ∀ now, ExecutionLog.Blind (f now)) :
    Matches (fun _ => 0) (World.Twin r.record? r'.record?) Eq Eq (r.change context f)
      (r'.change context f) where
  le _ := Nat.le_refl _
  alike w w' hw _ := by
    have hrec := hr.record?
    unfold change
    generalize r.record? = own at hrec hw
    generalize r'.record? = own' at hrec hw
    cases hrec with
    | none => exact ⟨hw,.ok rfl⟩
    | some hid =>
      have hmoment (v : World) :
          moment.exec v = (.ok ((Time.Moment.ofEpoch? v.now).getD default),v) := rfl
      have hnow : w'.now = w.now := by
        obtain ⟨l,rfl,-⟩ := hw
        rfl
      rw [exec_bind_ok (hmoment w),exec_bind_ok (hmoment w'),hnow,exec_discard,exec_discard]
      exact (logWrite_twin hw (changeRecord_twin hid context (hf _))).discarded

end Recorder

end StepGraph
