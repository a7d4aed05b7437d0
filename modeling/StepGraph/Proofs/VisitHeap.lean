import StepGraph.Proofs.Course
import StepGraph.Proofs.Executors

/-!
What a visit does to containers that were there. Everything around the performed step only allocates
and leaves the run as it is, and a step that fails as a step has written documents of its own
configuration at most.
-/
namespace StepGraph

open Attempt

namespace Recorder

theorem change_grows (r : Recorder) (context : Option Value)
    (f : Time.Moment → ExecutionLog → ExecutionLog) :
    Keeps (World.OnStore Store.Grows) (r.change context f) := by
  intro w
  unfold World.OnStore
  rcases r.change_cases context f w with ⟨-,hw⟩ | ⟨id,now,db,-,hw,-⟩ | ⟨hw,-⟩ <;> rw [hw]
  all_goals exact refl_of Store.Grows w.store

theorem add_grows (r : Recorder) (n : Node Item) (e : LogEntry) :
    Keeps (World.OnStore Store.Grows) (r.add n e) := by
  intro w
  unfold World.OnStore
  rcases r.add_cases n e w with ⟨-,hw⟩ | ⟨run,id,db,-,hw,-⟩ | ⟨hw,-⟩ <;> rw [hw]
  all_goals exact refl_of Store.Grows w.store

end Recorder

theorem Work.forLog_grows {α : Type} {p : Work α} (hp : Keeps (World.OnStore Store.Grows) p) :
    Keeps (World.OnStore Store.Grows) (Work.forLog p) := by
  intro w
  have h := hp w
  rw [Work.exec_forLog]
  rcases hw : p.exec w with ⟨e | x,w'⟩ <;> rw [hw] at h <;> exact h

namespace Visit

variable {α : Type}

/-- A class of programs that has those that call nobody, and what is put together for a record. -/
structure Looks (C : {α : Type} → Visit α → Prop) : Prop extends Closed C where
  throw {α : Type} (f : Fault) : C (throw f : Visit α)
  current : C current
  callFree {α : Type} {p : Work α} : Work.CallFree p → C (work p)
  forLog {α : Type} {p : Work α} : Work.CallFree p → C (work (Work.forLog p))

/-- With the writing of records, a class has everything around the performed step of a visit. -/
structure Around (C : {α : Type} → Visit α → Prop) : Prop extends Looks C where
  change (context : Option Value) {f : Time.Moment → ExecutionLog → ExecutionLog}
    (hf : ∀ now, ExecutionLog.Blind (f now)) : C (record fun r => r.change context f)
  recordVisit (n : Step Item) (status : String) (input output : Item) (error : Option String) :
    C (recordVisit n status input output error)

section

variable {C : {α : Type} → Visit α → Prop}

theorem Looks.snapshot (hC : Looks C) : C snapshot :=
  hC.bind hC.current fun _ => hC.forLog (.read _)

theorem Looks.summary (hC : Looks C) (n : Step Item) : C (summary n) := by
  unfold Visit.summary
  split
  · exact hC.pure _
  · exact hC.pure _
  · refine hC.bind hC.current fun run => hC.bind (hC.callFree (Steps.scope_callFree run)) fun _ => ?_
    exact hC.map (hC.forLog (.of _)) _

theorem Looks.around (hC : Looks C)
    (change : ∀ (r : Recorder) context f, C (work (r.change context f)))
    (add : ∀ (r : Recorder) (n : Node Item) (e : Time.Moment → LogEntry),
      C (work (Work.moment >>= fun now => discard (r.add n (e now))))) : Around C where
  toLooks := hC
  change context f _ := by
    refine hC.bind hC.current fun run => ?_
    split
    · exact hC.pure _
    · exact change _ context f
  recordVisit n status input output error := by
    refine hC.bind hC.current fun run => ?_
    split
    · exact hC.pure _
    · exact hC.bind (hC.summary n) fun _ => add _ _ _

namespace Around

theorem opening (hC : Around C) (n : Step Item) : C (opening n) := by
  have noted : C (noteProgress n) := by
    refine hC.bind hC.current fun run => ?_
    split
    · exact hC.bind hC.snapshot fun _ => hC.change _ fun _ _ _ _ => rfl
    · exact hC.pure _
  refine hC.bind noted fun _ => hC.bind (hC.callFree (.read _)) fun config => ?_
  refine hC.bind hC.current fun run =>
    hC.bind (hC.callFree (Steps.scope_callFree run)) fun scope => ?_
  exact hC.callFree (.of _)

theorem configInput (hC : Around C) (n : Step Item) : C (work (configInput n)) :=
  hC.callFree (.newObject _)

theorem skip (hC : Around C) (n : Step Item) (reason : String) : C (skip n reason) := by
  refine hC.bind (hC.configInput n) fun input => hC.bind (hC.callFree (.plant _)) fun output => ?_
  exact hC.bind (hC.recordVisit n _ input output _) fun _ => hC.pure _

theorem performed (hC : Around C) (n : Step Item) (o : Outcome) : C (performed n o) := by
  have input : C (inputOf n o) := by
    unfold inputOf
    split
    · exact hC.pure _
    · exact hC.configInput n
  have recorded : C (recordOutcome n o) := by
    unfold recordOutcome
    split
    · exact hC.pure _
    · exact hC.bind input fun i => hC.recordVisit n _ i _ _
  exact hC.bind recorded fun _ => hC.pure _

theorem failed (hC : Around C) (n : Step Item) (f : Fault) : C (failed n f) := by
  have input : C (failedInput n) := by
    unfold failedInput
    split
    · refine hC.bind hC.current fun run => hC.bind (hC.callFree (Steps.entry_callFree run _)) ?_
      exact fun _ => hC.callFree (.newObject _)
    · exact hC.configInput n
  have recorded : C (recordFailure n f) := by
    refine hC.bind hC.current fun run => ?_
    split
    · refine hC.bind input fun input => hC.bind (hC.callFree (.plant _)) fun output => ?_
      refine hC.bind (hC.recordVisit n _ input output _) fun _ => ?_
      exact hC.bind hC.snapshot fun _ => hC.change _ fun _ _ _ _ => rfl
    · exact hC.pure _
  refine hC.bind recorded fun _ => ?_
  exact hC.bind (hC.bind hC.current fun _ => hC.pure _) fun _ => hC.throw _

theorem step (hC : Around C) (n : Step Item) (hp : C (Attempt.caught (perform n))) :
    C (step n) := by
  rw [step_eq]
  refine hC.bind (hC.opening n) fun v => ?_
  cases v with
  | some reason => exact hC.skip n reason
  | none =>
    refine hC.bind hp fun r => ?_
    cases r with
    | ok o => exact hC.performed n o
    | error f => exact hC.failed n f

end Around

end

/-- The run stands where it stood, and no container that was there was written. -/
def Beside (t t' : Trip) : Prop := t'.run = t.run ∧ t.world.store.Grows t'.world.store

instance : IsPreorder Trip Beside where
  refl t := ⟨rfl,refl_of Store.Grows t.world.store⟩
  trans _ _ _ h h' := ⟨h'.1.trans h.1,trans_of Store.Grows h.2 h'.2⟩

theorem work_beside {p : Work α} (hp : Keeps (World.OnStore Store.Grows) p) :
    Keeps Beside (work p) := fun t => ⟨rfl,hp t.world⟩

theorem current_beside : Keeps Beside current := fun t => refl_of Beside t

theorem looks_beside : Looks (Keeps Beside) where
  toClosed := Keeps.closed
  throw := .throw
  current := current_beside
  callFree hp := work_beside hp.appendOnly.grows
  forLog hp := work_beside (Work.forLog_grows hp.appendOnly.grows)

theorem around_beside : Around (Keeps Beside) := by
  refine looks_beside.around (fun r context f => work_beside (r.change_grows context f)) ?_
  intro r n e
  exact work_beside (Work.AppendOnly.moment.grows.bind fun now =>
    Keeps.closed.map (r.add_grows n _) _)

def OnWorld (R : World → World → Prop) (t t' : Trip) : Prop := R t.world t'.world

section

variable {R : World → World → Prop} [IsPreorder World R]

instance : IsPreorder Trip (OnWorld R) where
  refl t := refl_of R t.world
  trans _ _ _ h h' := trans_of R h h'

omit [IsPreorder World R] in
theorem work_onWorld {p : Work α} (hp : Keeps R p) : Keeps (OnWorld R) (work p) := fun t => hp t.world

theorem around_onWorld (callFree : ∀ {α : Type} {p : Work α}, Work.CallFree p → Keeps R p)
    (forLog : ∀ {α : Type} {p : Work α}, Work.CallFree p → Keeps R (Work.forLog p))
    (change : ∀ (r : Recorder) context f, Keeps R (r.change context f))
    (add : ∀ (r : Recorder) n e, Keeps R (r.add n e)) : Around (Keeps (OnWorld R)) := by
  have looks : Looks (Keeps (OnWorld R)) :=
    { Keeps.closed with
      throw := .throw
      current := fun t => refl_of R t.world
      callFree := fun hp => work_onWorld (callFree hp)
      forLog := fun hp => work_onWorld (forLog hp) }
  refine looks.around (fun r context f => work_onWorld (change r context f)) fun r n e => ?_
  exact work_onWorld ((callFree .moment).bind fun now => Keeps.closed.map (add r n _) _)

end

def Under (Q : Option Recorder → Prop) (R : World → World → Prop) (t t' : Trip) : Prop :=
  Q t.run.recorder → t'.run.recorder = t.run.recorder ∧ R t.world t'.world

section

variable {Q : Option Recorder → Prop} {R : World → World → Prop} [IsPreorder World R]

instance : IsPreorder Trip (Under Q R) where
  refl t _ := ⟨rfl,refl_of R t.world⟩
  trans t t' t'' h h' hq := by
    obtain ⟨hrec,hw⟩ := h hq
    obtain ⟨hrec',hw'⟩ := h' (hrec ▸ hq)
    exact ⟨hrec'.trans hrec,trans_of R hw hw'⟩

omit [IsPreorder World R] in
theorem work_under {p : Work α} (hp : Keeps R p) : Keeps (Under Q R) (work p) :=
  fun t _ => ⟨rfl,hp t.world⟩

omit [IsPreorder World R] in
theorem current_under {k : Run → Visit α}
    (hk : ∀ run, Q run.recorder → Keeps (Under Q R) (k run)) : Keeps (Under Q R) (current >>= k) := by
  intro t hq
  rw [exec_bind_ok (exec_current t)]
  exact hk t.run hq t hq

theorem around_under (callFree : ∀ {α : Type} {p : Work α}, Work.CallFree p → Keeps R p)
    (forLog : ∀ {α : Type} {p : Work α}, Work.CallFree p → Keeps R (Work.forLog p))
    (change : ∀ r, Q (some r) → ∀ context {f : Time.Moment → ExecutionLog → ExecutionLog},
      (∀ now, ExecutionLog.Blind (f now)) → Keeps R (r.change context f))
    (add : ∀ r, Q (some r) → ∀ n e, Keeps R (r.add n e)) : Around (Keeps (Under Q R)) := by
  have looks : Looks (Keeps (Under Q R)) :=
    { Keeps.closed with
      throw := .throw
      current := fun t => refl_of (Under Q R) t
      callFree := fun hp => work_under (callFree hp)
      forLog := fun hp => work_under (forLog hp) }
  refine { looks with
    change := fun context f hf => ?_
    recordVisit := fun n status input output e => ?_ }
  · refine current_under fun run hq => ?_
    split
    · exact Keeps.closed.pure _
    · rename_i r hr
      exact work_under (change r (hr ▸ hq) context hf)
  · refine current_under fun run hq => ?_
    split
    · exact Keeps.closed.pure _
    · rename_i r hr
      refine (looks.summary n).bind fun _ => work_under ?_
      exact (callFree .moment).bind fun _ => Keeps.closed.map (add r (hr ▸ hq) _ _) _

omit [IsPreorder World R] in
theorem perform_under (n : Step Item) (plant : Keeps R (Work.plant unimplemented))
    (hk : ∀ k, n.kind? = some k → ∀ run, Q run.recorder → Keeps R (k.perform run n)) :
    Keeps (Under Q R) (perform n) := by
  intro t hq
  cases hn : n.kind? with
  | none =>
    unfold perform
    rw [hn]
    exact ⟨rfl,plant t.world⟩
  | some k =>
    have hw := hk k hn t.run hq t.world
    rw [perform_known hn]
    rcases hd : (k.perform t.run n).exec t.world with ⟨f | o,w⟩ <;> rw [hd] at hw
    · exact ⟨rfl,hw⟩
    · simp only
      split <;> exact ⟨rfl,hw⟩

end

theorem verdict_exec (n : Step Item) (t : Trip) :
    ((verdict n).exec t).2 = t ∧ OnlyDataFault ((verdict n).exec t).1 := by
  have hr : (work (Work.read n.config)).exec t = (t.world.store.read n.config,t) := rfl
  unfold verdict
  rw [exec_bind,hr]
  rcases hc : t.world.store.read n.config with f | config
  · exact ⟨rfl,.error (OnlyDataFault.storeRead _ _ f hc)⟩
  · exact ⟨rfl,.skipReason config t.world.store t.run.context⟩

theorem perform_spares (P : Nat → Prop) {roots : List Item} {n : Step Item} (hc : n.config ∈ roots)
    {t t' : Trip} {f : StepFailure} (h : (perform n).exec t = (.error (.step f),t')) :
    t'.run = t.run ∧ Store.Spares P roots t.world.store t'.world.store := by
  cases hk : n.kind? with
  | none =>
    obtain ⟨o,t₁,ho,-⟩ := perform_unknown hk t
    rw [ho] at h
    cases h
  | some k =>
    rw [perform_known hk] at h
    rcases hd : (k.perform t.run n).exec t.world with ⟨f' | o,w⟩
    · rw [hd] at h
      cases h
      exact ⟨rfl,(Steps.perform_contextLast t.run hk).spares P hc hd⟩
    · rw [hd] at h
      cases h

end Visit

end StepGraph
