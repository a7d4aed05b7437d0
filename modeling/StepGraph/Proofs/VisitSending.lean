import StepGraph.Proofs.Account
import StepGraph.Proofs.Sending

/-!
The files that a visit sends. Everything around the performed step sends none, and the step finds
the store as the visit found it. So a visit of a step that sends the data file sends the file that
the extracted data make then, unless the step is passed over or fails.
-/
namespace StepGraph

open Attempt Work

namespace Recorder

theorem change_sameSent (r : Recorder) (context : Option Value)
    (f : Time.Moment → ExecutionLog → ExecutionLog) : SendsNothing (r.change context f) := by
  intro w
  rcases r.change_cases context f w with ⟨-,hw⟩ | ⟨id,now,db,-,hw,-⟩ | ⟨hw,-⟩ <;> rw [hw]
  all_goals rfl

theorem add_sameSent (r : Recorder) (n : Node Item) (e : LogEntry) : SendsNothing (r.add n e) := by
  intro w
  rcases r.add_cases n e w with ⟨-,hw⟩ | ⟨run,id,db,-,hw,-⟩ | ⟨hw,-⟩ <;> rw [hw]
  all_goals rfl

end Recorder

theorem Work.CallFree.sendsNothing {α : Type} {p : Work α} (h : CallFree p) : SendsNothing p :=
  fun w => congrArg (List.flatMap Call.files) (h.calls w)

theorem Work.forLog_sendsNothing {α : Type} {p : Work α} (hp : SendsNothing p) :
    SendsNothing (forLog p) := by
  intro w
  have h := hp w
  rw [exec_forLog]
  rcases hw : p.exec w with ⟨e | x,w'⟩ <;> rw [hw] at h <;> exact h

namespace Visit

theorem around_sameSent : Around (Keeps (OnWorld World.SameSent)) :=
  around_onWorld (fun h => h.sendsNothing) (fun h => Work.forLog_sendsNothing h.sendsNothing)
    Recorder.change_sameSent Recorder.add_sameSent

/-- The run stands where it stood, and so do all containers. -/
def SameRunAndStore (t t' : Trip) : Prop := t'.run = t.run ∧ t'.world.store = t.world.store

instance : IsPreorder Trip SameRunAndStore where
  refl _ := ⟨rfl,rfl⟩
  trans _ _ _ h h' := ⟨h'.1.trans h.1,h'.2.trans h.2⟩

theorem opening_sameRunAndStore (n : Step Item) (t : Trip) :
    SameRunAndStore t ((opening n).exec t).2 := by
  have read : Keeps SameRunAndStore snapshot := by
    intro t
    have hs : snapshot.exec t =
        ((Work.forLog (Work.read t.run.context)).exec t.world |>.1,
          { t with world := ((Work.forLog (Work.read t.run.context)).exec t.world).2 }) := rfl
    have he : (Work.read t.run.context).exec t.world = (t.world.store.read t.run.context,t.world) := rfl
    rw [hs,exec_forLog,he]
    cases t.world.store.read t.run.context <;> exact ⟨rfl,rfl⟩
  have written (context : Option Value) (f : Time.Moment → ExecutionLog → ExecutionLog) :
      Keeps SameRunAndStore (record fun r => r.change context f) := by
    refine Keeps.bind (fun t => refl_of SameRunAndStore t) fun run => ?_
    split
    · exact Keeps.closed.pure _
    · rename_i r hr
      intro t
      refine ⟨rfl,?_⟩
      change ((r.change context f).exec t.world).2.store = _
      rcases r.change_cases context f t.world with ⟨-,hw⟩ | ⟨id,now,db,-,hw,-⟩ | ⟨hw,-⟩ <;>
        rw [hw] <;> rfl
  have noted : Keeps SameRunAndStore (noteProgress n) := by
    refine Keeps.bind (fun t => refl_of SameRunAndStore t) fun run => ?_
    split
    · exact read.bind fun _ => written _ _
    · exact Keeps.closed.pure _
  rw [← begun_eq_opened]
  exact noted t

/-- What a visit does with the file that its step sends. -/
inductive Delivery (file : Except Fault ByteArray) (n : Step Item) (t : Trip) (r : Except Fault String)
    (t' : Trip) : Prop
  | sent (data : ByteArray) (made : file = .ok data)
      (sent : t'.world.sent = t.world.sent ++ [data])
  | skipped (reason : String) (t₁ : Trip) (opened : (opening n).exec t = (.ok (some reason),t₁))
      (none : t'.world.sent = t.world.sent)
  | failed (f : Fault) (fault : r = .error f) (none : t'.world.sent = t.world.sent)

end Visit

/-- A step that sends the data file of its run: it uploads what is not the scanned document, or it
attaches the extracted data to a message. -/
inductive StepKind.SendsData (dataKind : FileKind) (config : Value) : StepKind → Prop
  | upload (kind : Steps.uploadKind config dataKind ≠ .ok .pdf) : SendsData dataKind config .sftpUpload
  | message (attaches : Steps.AttachesData config) : SendsData dataKind config .emailAction

namespace Visit

def data (t : Trip) : Except Fault Value :=
  t.world.store.read (Context.get t.world.store t.run.context Context.extractedKey)

theorem perform_sends {n : Step Item} {k : StepKind} {run : Run} {w : World} {config v : Value}
    (hs : k.SendsData run.dataKind config) (hc : w.store.read n.config = .ok config)
    (hv : w.store.read (Context.get w.store run.context Context.extractedKey) = .ok v) :
    SendsAt (Payload.serialize v run.dataKind) w (k.perform run n) := by
  cases hs with
  | upload hk => exact Steps.sftpUpload_sends hc hk hv
  | message ha => exact Steps.emailAction_sends hc ha hv

theorem failed_error (n : Step Item) (f : Fault) (t : Trip) :
    ∃ e, ((failed n f).exec t).1 = .error e := by
  unfold failed
  rw [exec_bind]
  rcases (recordFailure n f).exec t with ⟨e | _,t'⟩
  · exact ⟨e,rfl⟩
  · exact ⟨_,rfl⟩

theorem settle_sends {n : Step Item} {k : StepKind} (hk : n.kind? = some k) {t : Trip}
    {file : Except Fault ByteArray} (h : SendsAt file t.world (k.perform t.run n)) :
    (∃ data, file = .ok data ∧ ((settle n).exec t).2.world.sent = t.world.sent ++ [data]) ∨
      ((settle n).exec t).2.world.sent = t.world.sent ∧ ∃ f, ((settle n).exec t).1 = .error f := by
  unfold settle
  rw [exec_bind,exec_caught,perform_known hk]
  unfold SendsAt at h
  rcases hd : (k.perform t.run n).exec t.world with ⟨f | o,w⟩ <;> rw [hd] at h <;> simp only at h ⊢
  · have hrest : ((failed n f).exec ⟨w,t.run⟩).2.world.sent = w.sent :=
      around_sameSent.failed n f ⟨w,t.run⟩
    exact h.imp (fun ⟨data,hm,hs⟩ => ⟨data,hm,hrest.trans hs⟩)
      fun ⟨hs,_⟩ => ⟨hrest.trans hs,failed_error n f _⟩
  · let t₁ : Trip := ⟨w,if k.keepsResponse then { t.run with last := o.response } else t.run⟩
    have hrest : ((performed n o).exec t₁).2.world.sent = w.sent := around_sameSent.performed n o t₁
    rcases h with ⟨data,hm,hs⟩ | ⟨-,f,hf⟩
    · exact .inl ⟨data,hm,hrest.trans hs⟩
    · cases hf

theorem step_delivers {n : Step Item} {k : StepKind} {t : Trip} {config v : Value}
    (hk : n.kind? = some k) (hs : k.SendsData t.run.dataKind config)
    (hc : t.world.store.read n.config = .ok config) (hv : data t = .ok v) :
    Delivery (Payload.serialize v t.run.dataKind) n t ((step n).exec t).1 ((step n).exec t).2 := by
  obtain ⟨hrun,hstore⟩ := opening_sameRunAndStore n t
  have hsent : ((opening n).exec t).2.world.sent = t.world.sent := around_sameSent.opening n t
  rw [step_eq,exec_bind]
  rcases ho : (opening n).exec t with ⟨f | ⟨⟩ | reason,t₁⟩ <;> rw [ho] at hrun hstore hsent <;>
    simp only at hrun hstore hsent ⊢
  · exact .failed f rfl hsent
  · unfold data at hv
    rw [← hstore] at hc hv
    have hfile := perform_sends hs hc hv
    rw [← hrun] at hfile ⊢
    rcases settle_sends hk hfile with ⟨data,hm,hdata⟩ | ⟨hnone,f,hf⟩
    · exact .sent data hm (hdata.trans (congrArg (· ++ [data]) hsent))
    · exact .failed f hf (hnone.trans hsent)
  · have hskip : ((skip n reason).exec t₁).2.world.sent = t₁.world.sent :=
      around_sameSent.skip n reason t₁
    exact .skipped reason t₁ ho (hskip.trans hsent)

end Visit

end StepGraph
