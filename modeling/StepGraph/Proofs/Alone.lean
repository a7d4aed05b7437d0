import StepGraph.Proofs.Executors

/-!
Programs that keep to themselves. A program is alone when it deals with none of the two services
that answer, HTTP and AI: whatever was called, and whatever will be answered by whom, it does the
same and leaves that as it is. Recording a phase is alone, and so is all of a step but its requests.
-/
namespace StepGraph

open Attempt

structure World.Outside where
  calls : List Call
  http : Script HttpReply
  ai : Option Provider

def World.outside (w : World) : World.Outside := ⟨w.calls,w.http,w.ai⟩

def World.facing (o : World.Outside) (w : World) : World :=
  { w with calls := o.calls, http := o.http, ai := o.ai }

def World.offering (ai : Option Provider) (w : World) : World := { w with ai := ai }

namespace Work

variable {α β : Type}

/-- A program that calls nobody, and does the same whoever could answer. -/
def Alone (p : Work α) : Prop := ∀ o, Oblivious (World.facing o) p

/-- A program that does the same whatever AI provider there is. -/
def Unasked (p : Work α) : Prop := ∀ ai, Oblivious (World.offering ai) p

namespace Alone

variable {p : Work α}

theorem outside (h : Alone p) (w : World) : (p.exec w).2.outside = w.outside := by
  have he : (p.exec w).2 = (p.exec w).2.facing w.outside := congrArg Prod.snd (h w.outside w)
  rw [he]
  rfl

theorem calls {x : α} {w w' : World} (h : Alone p) (hp : p.exec w = (.ok x,w')) :
    w'.calls = w.calls := by
  have ho := h.outside w
  rw [hp] at ho
  exact congrArg World.Outside.calls ho

theorem unasked (h : Alone p) : Unasked p := by
  intro ai w
  have he : (p.exec w).2.facing { w.outside with ai := ai } = (p.exec w).2.offering ai := by
    rw [← h.outside w]
    rfl
  rw [← he]
  exact h { w.outside with ai := ai } w

theorem bind {f : α → Work β} (hp : Alone p) (hf : ∀ x, Alone (f x)) : Alone (p >>= f) :=
  fun o => Oblivious.bind (hp o) fun x => hf x o

theorem closed : Closed Alone where
  pure _ _ _ := rfl
  bind := bind

theorem of (r : Except Fault α) : Alone (Work.of r) := fun _ _ => rfl

theorem throw (f : Fault) : Alone (throw f : Work α) := fun _ _ => rfl

theorem edit (e : Edit α) : Alone (Work.edit e) := fun _ _ => rfl

theorem modify {f : World → World} (h : ∀ o w, f (World.facing o w) = (f w).facing o) :
    Alone (modify f : Work PUnit) := fun o => Oblivious.modify (h o)

theorem caught (h : Alone p) : Alone (Attempt.caught p) := fun o => Oblivious.caught (h o)

theorem get_bind {k : World → Work α} (hk : ∀ w, Alone (k w))
    (hu : ∀ o w, k (World.facing o w) = k w) : Alone (get >>= k) :=
  fun o => Oblivious.get_bind (fun w => hk w o) (hu o)

theorem database_bind {k : Database → Work α} (hk : ∀ db, Alone (k db)) :
    Alone (database >>= k) := by
  change Alone (get >>= fun w => k w.db)
  exact get_bind (fun w => hk w.db) fun _ _ => rfl

theorem store : Alone Work.store := fun _ _ => rfl

theorem read (i : Item) : Alone (Work.read i) := store.bind fun _ => of _

theorem scope (run : Run) : Alone run.scope :=
  (store.bind fun _ => closed.pure _).bind fun _ => closed.pure _

theorem moment : Alone Work.moment := fun _ _ => rfl

theorem plant (v : Value) : Alone (Work.plant v) := edit _

theorem newObject (es : Entries Item) : Alone (Work.newObject es) := edit _

theorem setDatabase (db : Database) : Alone (Work.setDatabase db) := modify fun _ _ => rfl

theorem lose : Alone Work.lose := modify fun _ _ => rfl

theorem bestEffort (h : Alone p) : Alone (Work.bestEffort p) := by
  refine database_bind fun db => (caught h).bind fun r => ?_
  cases r with
  | ok x => exact closed.pure _
  | error f =>
    simp only
    split
    · exact (setDatabase db).bind fun _ => closed.pure _
    · exact throw f

theorem forLog (h : Alone p) : Alone (Work.forLog p) := by
  refine (caught h).bind fun r => ?_
  cases r with
  | ok x => exact closed.pure _
  | error f => exact lose.bind fun _ => throw f

theorem exposed {p : Work (Option α)} (h : Alone p) : Alone (Work.exposed p) := by
  intro o w
  have hout : (w.facing o).outages = w.outages := rfl
  rw [exec_exposed,exec_exposed,hout]
  split
  · rfl
  · exact h o w.popped

theorem logWrite (h : Alone p) : Alone (Work.logWrite p) := by
  refine (forLog (exposed (bestEffort h))).bind fun done => ?_
  exact closed.guard lose fun _ => closed.pure done

theorem newStep (r : Recorder) (id : Int) (n : Node Item) (e : LogEntry) :
    Alone (r.newStep id n e) := by
  refine database_bind fun db => (of _).bind fun _ => (of _).bind fun _ => ?_
  refine (read _).bind fun _ => (of _).bind fun _ => (read _).bind fun _ => (of _).bind fun _ => ?_
  refine (read _).bind fun _ => (of _).bind fun _ => ?_
  exact (setDatabase _).bind fun _ => closed.pure _

theorem add (r : Recorder) (n : Node Item) (e : LogEntry) : Alone (r.add n e) := by
  unfold Recorder.add
  split
  · exact closed.pure none
  · exact logWrite (newStep r _ n e)

theorem logPhase (run : Run) (node : Step Item) (phase status : String) (input output : Item)
    (error : Option String) : Alone (run.logPhase node phase status input output error) := by
  unfold Run.logPhase
  split
  · exact closed.pure ()
  · exact moment.bind fun _ => closed.map (add _ _ _) _

theorem require {c : Collaborator} (h : c ≠ .ai) : Alone (Work.require c) := by
  refine get_bind (fun w => ?_) fun o w => by cases c <;> first | rfl | exact absurd rfl h
  split
  · exact closed.pure _
  · exact throw _

theorem api (source id : Value) : Alone (Profile.api source id) := by
  unfold Profile.api
  split
  · unfold Profile.secondary
    refine closed.guard (throw _) fun _ => ?_
    refine database_bind fun db => (of _).bind fun i => (of _).bind fun r => ?_
    split
    · exact closed.pure _
    · exact (of _).bind fun _ => throw _
  · refine database_bind fun db => (of _).bind fun _ => database_bind fun db => ?_
    split <;> exact closed.pure _

end Alone

namespace Unasked

variable {p : Work α}

theorem bind {f : α → Work β} (hp : Unasked p) (hf : ∀ x, Unasked (f x)) : Unasked (p >>= f) :=
  fun ai => Oblivious.bind (hp ai) fun x => hf x ai

theorem closed : Closed Unasked where
  pure _ _ _ := rfl
  bind := bind

theorem send (request : HttpRequest) : Unasked (Http.send request) := by
  have note : Unasked (Work.note (.http request)) :=
    fun _ => Oblivious.modify fun _ => rfl
  have reply : Unasked Http.reply := fun _ _ => rfl
  refine note.bind fun _ => reply.bind fun r => ?_
  cases r with
  | failure m => exact (Alone.throw _).unasked
  | answer a =>
    exact ((Alone.of _).bind fun v => (Alone.plant v).bind fun _ => Alone.closed.pure _).unasked

end Unasked

def Onward (w w' : World) : Prop := w'.outside = w.outside ∧ w.store.Grows w'.store

instance : IsPreorder World Onward where
  refl w := ⟨rfl,refl_of Store.Grows w.store⟩
  trans _ _ _ h h' := ⟨h'.1.trans h.1,trans_of Store.Grows h.2 h'.2⟩

theorem Alone.onward {p : Work α} (h : Alone p) (hd : GrowsStore p) : Keeps Onward p :=
  fun w => ⟨h.outside w,hd.grows w⟩

namespace Onward

variable {w w' : World}

theorem calls (h : Onward w w') : w'.calls = w.calls := congrArg World.Outside.calls h.1

theorem ai (h : Onward w w') : w'.ai = w.ai := congrArg World.Outside.ai h.1

theorem of {α : Type} (r : Except Fault α) : Keeps Onward (Work.of r) :=
  (Alone.of r).onward (AppendOnly.of r).toGrowsStore

theorem scope (run : Run) : Keeps Onward run.scope :=
  (Alone.scope run).onward (Steps.scope_readOnly run).appendOnly.toGrowsStore

theorem plant (v : Value) : Keeps Onward (Work.plant v) :=
  (Alone.plant v).onward (AppendOnly.plant v).toGrowsStore

theorem newObject (es : Entries Item) : Keeps Onward (Work.newObject es) :=
  (Alone.newObject es).onward (AppendOnly.newObject es).toGrowsStore

end Onward

theorem logPhase_onward (run : Run) (node : Step Item) (phase status : String)
    (input output : Item) (error : Option String) :
    Keeps Onward (run.logPhase node phase status input output error) := by
  intro w
  refine ⟨(Alone.logPhase run node phase status input output error).outside w,?_⟩
  rw [(Steps.logPhase_exec run node phase status input output error w).2.1]
  exact refl_of Store.Grows w.store

end Work

end StepGraph
