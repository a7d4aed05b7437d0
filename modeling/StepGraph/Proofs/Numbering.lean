import StepGraph.Proofs.VisitHeap

/-!
The numbers of the records of steps. Whatever a run does, the records that it adds are numbered
upwards from all that were there, so they stand in the order of their numbers.
-/
namespace StepGraph

open Attempt

namespace Table

variable {ρ : Type} [Numbered ρ]

/-- Records were added, numbered upwards from those that were there. -/
def Climbs (t t' : Table ρ) : Prop :=
  ∃ added, t'.rows = t.rows ++ added ∧
    added.Pairwise (fun a b => Numbered.id a < Numbered.id b) ∧
    ∀ a ∈ t.rows, ∀ b ∈ added, Numbered.id a < Numbered.id b

instance : IsPreorder (Table ρ) Climbs where
  refl t := ⟨[],by simp⟩
  trans t t' t'' := by
    rintro ⟨added,ha,hp,hl⟩ ⟨added',ha',hp',hl'⟩
    rw [ha] at hl'
    refine ⟨added ++ added',by rw [ha',ha,List.append_assoc],?_,fun a hmem b hb => ?_⟩
    · exact List.pairwise_append.2
        ⟨hp,hp',fun a hmem b hb => hl' a (List.mem_append_right _ hmem) b hb⟩
    · rcases List.mem_append.1 hb with hb | hb
      · exact hl a hmem b hb
      · exact hl' a (List.mem_append_left _ hmem) b hb

theorem climbs_concat (t : Table ρ) {row : ρ} (h : Numbered.id row = t.nextId) :
    t.Climbs { t with rows := t.rows ++ [row] } :=
  ⟨[row],rfl,List.pairwise_singleton _ _,fun a ha b hb => by
    rw [List.mem_singleton.1 hb,h]
    exact t.lt_nextId a ha⟩

end Table

def World.Climbs (w w' : World) : Prop := w.db.stepLogs.Climbs w'.db.stepLogs

instance : IsPreorder World World.Climbs where
  refl w := refl_of Table.Climbs w.db.stepLogs
  trans _ _ _ h h' := trans_of Table.Climbs h h'

theorem Work.Unlogged.climbs {α : Type} {p : Work α} (h : Unlogged p) : Keeps World.Climbs p := by
  intro w
  have hs : (p.exec w).2.db.stepLogs = w.db.stepLogs := congrArg World.Logs.stepLogs (h.logs w)
  unfold World.Climbs
  rw [hs]
  exact refl_of Table.Climbs w.db.stepLogs

namespace Recorder

theorem add_climbs (r : Recorder) (n : Node Item) (e : LogEntry) :
    Keeps World.Climbs (r.add n e) := by
  intro w
  rcases r.add_cases n e w with ⟨-,hw⟩ | ⟨run,id,db,-,hw,row,rfl,⟨hid,hnext⟩,-⟩ | ⟨hw,-⟩ <;> rw [hw]
  · exact refl_of World.Climbs w
  · exact Table.climbs_concat w.db.stepLogs (hid.trans hnext)
  · exact refl_of World.Climbs w

theorem change_climbs (r : Recorder) (context : Option Value)
    (f : Time.Moment → ExecutionLog → ExecutionLog) : Keeps World.Climbs (r.change context f) := by
  intro w
  rcases r.change_cases context f w with
    ⟨-,hw⟩ | ⟨id,now,db,-,hw,row,c,now',-,-,rfl⟩ | ⟨hw,-⟩ <;> rw [hw]
  all_goals exact refl_of World.Climbs w

end Recorder

theorem Work.forLog_climbs {α : Type} {p : Work α} (hp : Unlogged p) :
    Keeps World.Climbs (forLog p) := by
  intro w
  have h := hp.climbs w
  rw [exec_forLog]
  rcases hw : p.exec w with ⟨e | x,w'⟩ <;> rw [hw] at h <;> exact h

theorem Steps.perform_climbs {k : StepKind} (run : Run) {node : Step Item}
    (hk : node.kind? = some k) : Keeps World.Climbs (k.perform run node) := by
  refine (perform_contextLast run hk).within Keeps.closed (fun h _ => h.climbs) ?_
  intro name status input output error
  unfold Run.logPhase
  split
  · exact Keeps.closed.pure _
  · exact Work.AppendOnly.moment.unlogged.climbs.bind fun _ =>
      Keeps.closed.map (Recorder.add_climbs _ _ _) _

namespace Visit

theorem around_climbs : Around (Keeps (OnWorld World.Climbs)) :=
  around_onWorld (fun h => h.appendOnly.unlogged.climbs)
    (fun h => Work.forLog_climbs h.appendOnly.unlogged) Recorder.change_climbs Recorder.add_climbs

theorem perform_climbs (n : Step Item) : Keeps (OnWorld World.Climbs) (perform n) := by
  unfold perform
  split
  · exact (work_onWorld (Work.AppendOnly.plant _).unlogged.climbs).bind fun _ => Keeps.closed.pure _
  · rename_i k hk
    refine around_climbs.current.bind fun run => ?_
    refine (work_onWorld (Steps.perform_climbs run hk)).bind fun o => ?_
    exact Keeps.closed.guard (fun t => refl_of World.Climbs t.world) fun _ => Keeps.closed.pure _

theorem step_climbs (n : Step Item) : Keeps (OnWorld World.Climbs) (step n) :=
  around_climbs.step n (perform_climbs n).caught

end Visit

end StepGraph
