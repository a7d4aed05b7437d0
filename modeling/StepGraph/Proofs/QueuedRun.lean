import StepGraph.Proofs.Effects
import StepGraph.Proofs.Keys
import StepGraph.Proofs.Writable
import StepGraph.Server.Answer

/-!
A queued run is the run that was asked for. A request is written field by field and read again
field by field, so what a queued run carries reads as the request that was submitted, with the
workflow that the path names. Performing it does what the route that answers at once does.
-/
namespace StepGraph

open Attempt Work

namespace Value

mutual

theorem finite_eq : ∀ {v : Value}, v.isFinite = true → v.finite = v
  | .scalar _, h => congrArg Value.scalar (if_pos h)
  | .list _, h => congrArg Value.list (finiteItems_eq h)
  | .object _, h => congrArg Value.object (finiteEntries_eq h)

theorem finiteItems_eq : ∀ {xs : List Value}, areFinite xs = true → finiteItems xs = xs
  | [], _ => rfl
  | _ :: _, h => by
    obtain ⟨hx,hrest⟩ := Bool.and_eq_true_iff.mp h
    rw [finiteItems,finite_eq hx,finiteItems_eq hrest]

theorem finiteEntries_eq : ∀ {es : Entries Value}, haveFinite es = true → finiteEntries es = es
  | [], _ => rfl
  | _ :: _, h => by
    obtain ⟨hx,hrest⟩ := Bool.and_eq_true_iff.mp h
    rw [finiteEntries,finite_eq hx,finiteEntries_eq hrest]

end

theorem haveFinite_iff {es : Entries Value} :
    haveFinite es = true ↔ ∀ e ∈ es, e.2.isFinite = true := by
  induction es with
  | nil => simp [haveFinite]
  | cons e rest ih => simp [haveFinite,ih]

end Value

namespace Checked

variable {α β : Type}

theorem map_eq_ok {f : α → β} {c : Checked α} {y : β} (h : f <$> c = .ok y) :
    ∃ x, c = .ok x ∧ y = f x := by
  cases c with
  | ok x =>
    cases h
    exact ⟨x,rfl,rfl⟩
  | problems ps => cases h

theorem seq_eq_ok {f : Checked (α → β)} {c : Checked α} {y : β} (h : f <*> c = .ok y) :
    ∃ g x, f = .ok g ∧ c = .ok x ∧ y = g x := by
  cases f with
  | ok g =>
    cases c with
    | ok x =>
      cases h
      exact ⟨g,x,rfl,rfl,rfl⟩
    | problems ps => cases h
  | problems ps => cases c <;> cases h

end Checked

theorem Rule.ofOption_of_object {v : Value} {x : Option (Entries Value)}
    (h : Rule.object.optional v = .ok x) : .ofOption (x.map .object) = v := by
  unfold Rule.optional at h
  split at h
  · rename_i hn
    cases h
    exact (Value.eq_null hn).symm
  · cases v <;> cases h
    rfl

namespace Entries

variable {α : Type}

theorem withDefault_eq_ok {es : Entries Value} {names : List String} {default x : α} {rule : Rule α}
    (h : es.withDefault names default rule = .ok x) :
    x = default ∨ ∃ e ∈ es, rule e.2 = .ok x := by
  unfold withDefault spelled? at h
  split at h
  · rename_i n v hv
    obtain ⟨k,-,hk⟩ := List.exists_of_findSome?_eq_some hv
    obtain ⟨v',hv',he⟩ := Option.map_eq_some_iff.mp hk
    cases he
    refine .inr ⟨(n,v),mem_of_get? hv',?_⟩
    unfold check at h
    split at h
    · cases h
      assumption
    · cases h
  · cases h
    exact .inl rfl

end Entries

namespace Request

theorem ofEntries_congr {es es' : Entries Value} (h : ∀ k, es.get? k = es'.get? k) :
    ofEntries es = ofEntries es' := by
  simp only [ofEntries,Entries.optional,Entries.withDefault,Entries.spelled?,h]

theorem get?_entries (r : Request) (k : String) :
    r.entries.get? k = (r.fields.get? k).filter fun v => !v.isNull := by
  have hd : r.fields.keys.Nodup := by simp [fields,Entries.keys]
  exact Entries.get?_filter hd (fun v => !v.isNull) k

section Field

variable {α : Type} {r : Request} {name other : String} {v : Value}

theorem withDefault_entries {default x : α} {rule : Rule α}
    (hv : r.fields.get? name = some v) (hother : r.fields.get? other = none)
    (hx : if v.isNull then default = x else rule v = .ok x) :
    r.entries.withDefault [name,other] default rule = .ok x := by
  have hname := r.get?_entries name
  have hnone := r.get?_entries other
  rw [hv,Option.filter_some] at hname
  rw [hother,Option.filter_none] at hnone
  unfold Entries.withDefault Entries.spelled?
  cases hn : v.isNull with
  | true =>
    simp only [hn,if_true] at hx
    simp [hname,hnone,hn,hx]
  | false =>
    simp only [hn,Bool.false_eq_true,if_false] at hx
    simp [hname,hn,Entries.check,hx]

theorem any_entries (hv : r.fields.get? name = some v) (hother : r.fields.get? other = none) :
    r.entries.withDefault [name,other] .null Rule.any = .ok v := by
  refine withDefault_entries hv hother ?_
  split
  · rename_i hn
    exact (Value.eq_null hn).symm
  · rfl

theorem whole_entries {x : Option Int} (hv : r.fields.get? name = some (number x))
    (hother : r.fields.get? other = none) :
    r.entries.optional [name,other] Rule.whole = .ok x :=
  withDefault_entries hv hother (by cases x <;> rfl)

theorem text_entries {x : Option String} (hv : r.fields.get? name = some (.ofText? x))
    (hother : r.fields.get? other = none) :
    r.entries.optional [name,other] Rule.text = .ok x :=
  withDefault_entries hv hother (by cases x <;> rfl)

theorem object_entries {x : Option (Entries Value)}
    (hv : r.fields.get? name = some (.ofOption (x.map .object)))
    (hother : r.fields.get? other = none) :
    r.entries.optional [name,other] Rule.object = .ok x :=
  withDefault_entries hv hother (by cases x <;> rfl)

end Field

theorem ofEntries_entries (r : Request) : ofEntries r.entries = .ok r := by
  rw [ofEntries,
    whole_entries (x := r.workflow),
    any_entries (v := r.extracted),
    text_entries (x := r.extractedPath),
    whole_entries (x := r.extractionType),
    whole_entries (x := r.transformationType),
    text_entries (x := r.format),
    text_entries (x := r.pdfFilename),
    text_entries (x := r.givenFilename),
    text_entries (x := r.typeFilename),
    text_entries (x := r.groupTemplate),
    text_entries (x := r.pdfPath),
    text_entries (x := r.pdf),
    whole_entries (x := r.pages),
    text_entries (x := r.user),
    text_entries (x := r.sender),
    text_entries (x := r.submitter),
    text_entries (x := r.session),
    whole_entries (x := r.groupOrder),
    object_entries (x := r.context),
    any_entries (v := r.workflowData)]
  all_goals rfl

theorem get?_put_entries (r : Request) (id : Int) (k : String) :
    Entries.get? (r.entries.put "workflowId" (.int id)) k =
      Entries.get? (entries { r with workflow := some id }) k := by
  rw [get?_entries]
  by_cases hk : k = "workflowId"
  · rw [hk,Entries.get?_put_self]
    rfl
  · rw [Entries.get?_put_of_ne hk,get?_entries]
    simp only [fields,Entries.get?,if_neg hk]

@[simp] theorem isFinite_number (x : Option Int) : (number x).isFinite = true := by cases x <;> rfl

@[simp] theorem isFinite_ofText? (x : Option String) : (Value.ofText? x).isFinite = true := by
  cases x <;> rfl

theorem ofEntries_parts {es : Entries Value} {r : Request} (h : ofEntries es = .ok r) :
    es.withDefault ["extractedData","extracted_data"] .null Rule.any = .ok r.extracted ∧
    es.optional ["contextData","context_data"] Rule.object = .ok r.context ∧
    es.withDefault ["workflowOnlyData","workflow_only_data"] .null Rule.any =
      .ok r.workflowData := by
  replace h := Checked.seq_eq_ok h
  obtain ⟨_,workflowData,h,hw,rfl⟩ := h
  replace h := Checked.seq_eq_ok h
  obtain ⟨_,context,h,hc,rfl⟩ := h
  iterate 16
    replace h := Checked.seq_eq_ok h
    obtain ⟨_,_,h,-,rfl⟩ := h
  replace h := Checked.seq_eq_ok h
  obtain ⟨_,extracted,h,he,rfl⟩ := h
  obtain ⟨workflow,-,rfl⟩ := Checked.map_eq_ok h
  exact ⟨he,hc,hw⟩

theorem haveFinite_entries {es : Entries Value} {r : Request} (h : ofEntries es = .ok r)
    (hes : Value.haveFinite es = true) : Value.haveFinite r.entries = true := by
  obtain ⟨hextracted,hcontext,hdata⟩ := ofEntries_parts h
  have any {names : List String} {v : Value} (h : es.withDefault names .null Rule.any = .ok v) :
      v.isFinite = true := by
    rcases Entries.withDefault_eq_ok h with rfl | ⟨e,he,hv⟩
    · rfl
    · cases hv
      exact Value.haveFinite_iff.mp hes e he
  have context : (Value.ofOption (r.context.map .object)).isFinite = true := by
    rcases Entries.withDefault_eq_ok hcontext with hx | ⟨e,he,hv⟩
    · rw [hx]
      rfl
    · rw [Rule.ofOption_of_object hv]
      exact Value.haveFinite_iff.mp hes e he
  have hall : Value.haveFinite r.fields = true := by
    simp [fields,Value.haveFinite,any hextracted,any hdata,context]
  refine Value.haveFinite_iff.mpr fun e he => ?_
  exact Value.haveFinite_iff.mp hall e (List.mem_filter.mp he).1

end Request

namespace Server

namespace QueuedRun

/-- What a queued run carries reads as the request that was submitted. -/
theorem toRequest_ofRequest {es : Entries Value} {r : Request} (h : Request.ofEntries es = .ok r)
    (hes : Value.haveFinite es = true) (id : Int) (mode : Mode) :
    (ofRequest id mode r).toRequest = .ok { r with workflow := some id } := by
  unfold toRequest ofRequest Request.read
  rw [Value.finiteEntries_eq (Request.haveFinite_entries h hes),
    Request.ofEntries_congr (r.get?_put_entries id),Request.ofEntries_entries]
  rfl

theorem perform_of_toRequest {q : QueuedRun} {r : Request} {mode : Mode}
    (hr : q.toRequest = .ok r) (hm : q.mode = mode.name) :
    q.perform = (do return ⟨true,← attempt (Launch.run mode r)⟩) := by
  unfold perform
  rw [hr,hm]
  simp only [Mode.ofName,Mode.ofName?_name]

end QueuedRun

/-- What the route that answers at once says of a run that went so. -/
def answered : Except Fault Report → Work Response
  | .ok report => do reply (.object (← Work.of (report.entries (← Work.store))))
  | .error f =>
    match failedRun f with
    | some v => Work.of (Response.document v 500)
    | none => throw f

theorem natAbs_lt_writtenLimit {i : Int} (h : fitsRecord i = true) :
    i.natAbs < Json.writtenLimit := by
  have hlimit : tenTo 20 ≤ tenTo Decimal.maxDigits := tenTo_mono (by decide)
  have hroom : twoTo 63 < tenTo 20 := by decide
  obtain ⟨hlow,hhigh⟩ := Bool.and_eq_true_iff.mp h
  have hlow := of_decide_eq_true hlow
  have hhigh := of_decide_eq_true hhigh
  unfold Json.writtenLimit
  omega

theorem fitsRecord_of_find {ρ : Type} [Numbered ρ] {t : Table ρ} {id : Int} {found : ρ}
    (h : t.find id = .ok (some found)) : fitsRecord id = true := by
  obtain ⟨rows,-,h⟩ := eq_ok_of_bind h
  obtain ⟨i,hi,-⟩ := eq_ok_of_bind h
  unfold held at hi
  split at hi
  · assumption
  · cases hi

theorem found_exec {ρ : Type} [Numbered ρ] {what : String} {t : Table ρ} {id : Int} {row : ρ}
    (h : t.find id = .ok (some row)) (f : ρ → Work Response) (w : World) :
    (found what t id f).exec w = (f row).exec w := by
  unfold found
  rw [h,exec_bind_of]

theorem document_queued {id : Int} (h : fitsRecord id = true) (task mode : String) (status : Int) :
    let answer : Value := .object [("task_id",.text task),("status",.text "queued"),
      ("workflow_id",.int id),("mode",.text mode),("message",.text (queuedMessage task))]
    Response.document answer status = .ok ⟨status,.document answer,none⟩ := by
  have hdigits := natAbs_lt_writtenLimit h
  simp [Response.document,Json.fault?,Json.entriesFault?,Json.scalarFault?,hdigits,
    Value.isFinite,Value.haveFinite,Scalar.isFinite]

theorem queueWorkflow_exec {w : World} {id : Int} {row : Workflow}
    (h : w.db.workflows.find id = .ok (some row)) (queue : Queue) (mode : Mode) (r : Request) :
    ∃ answer : Response, (queueWorkflow queue id mode.name r).exec w = (.ok answer,w) ∧
      answer.status = 202 ∧ answer.queued = some (QueuedRun.ofRequest id mode r) := by
  unfold queueWorkflow
  simp only [Mode.ofName?_name]
  rw [exec_database,found_exec h,
    document_queued (fitsRecord_of_find h)]
  exact ⟨_,rfl,rfl,rfl⟩

theorem runWorkflow_exec {w : World} {id : Int} {row : Workflow}
    (h : w.db.workflows.find id = .ok (some row)) (mode : Mode) (r : Request) :
    (runWorkflow mode id r).exec w =
      (attempt (Launch.run mode { r with workflow := some id }) >>= answered).exec w := by
  unfold runWorkflow
  rw [exec_database,found_exec h]
  refine congrArg (fun f => exec (attempt _ >>= f) w) (funext fun done => ?_)
  cases done <;> rfl

/-- A submitted record in which a run says what it is asked for. What the queue route puts into the
queue reads as the request that the synchronous route runs, nulls inside of its documents included,
and performing it runs that request: with a stored workflow, the synchronous route answers what
performing the queued run comes to. -/
theorem queuedRun_same {es : Entries Value} {r : Request} (h : Request.ofEntries es = .ok r)
    (hes : Value.haveFinite es = true) (id : Int) (mode : Mode) :
    (QueuedRun.ofRequest id mode r).toRequest = .ok { r with workflow := some id } ∧
    (QueuedRun.ofRequest id mode r).perform =
      (do return ⟨true,← attempt (Launch.run mode { r with workflow := some id })⟩) ∧
    ∀ (w : World) (row : Workflow), w.db.workflows.find id = .ok (some row) →
      (∀ queue : Queue, ∃ answer : Response,
        (queueWorkflow queue id mode.name r).exec w = (.ok answer,w) ∧ answer.status = 202 ∧
        answer.queued = some (QueuedRun.ofRequest id mode r)) ∧
      (runWorkflow mode id r).exec w =
        ((QueuedRun.ofRequest id mode r).perform >>= fun p => answered p.outcome).exec w := by
  have hread := QueuedRun.toRequest_ofRequest h hes id mode
  have hperform := QueuedRun.perform_of_toRequest hread rfl
  refine ⟨hread,hperform,fun w row hrow => ⟨fun queue => ?_,?_⟩⟩
  · exact queueWorkflow_exec hrow queue mode r
  · rw [runWorkflow_exec hrow,hperform,bind_assoc]
    rfl

/-- A record with both spellings of names, and with nulls at two depths. -/
def submitted : Entries Value :=
  [("workflowId",.int 3),("extracted_data",.object [("orders",.list [.object [("n",.null)]])]),
    ("format_type",.text "JSON"),("userId",.null),("workflowOnlyData",.list [.null])]

def asked : Request where
  workflow := some 3
  extracted := .object [("orders",.list [.object [("n",.null)]])]
  format := some "JSON"
  workflowData := .list [.null]

theorem queuedRun_same_submitted :
    Request.ofEntries submitted = .ok asked ∧ Value.haveFinite submitted = true ∧
    (QueuedRun.ofRequest 7 .transformation asked).toRequest =
      .ok { asked with workflow := some 7 } := by
  have hread : Request.ofEntries submitted = .ok asked := rfl
  exact ⟨hread,rfl,(queuedRun_same hread rfl 7 .transformation).1⟩

end Server

end StepGraph
