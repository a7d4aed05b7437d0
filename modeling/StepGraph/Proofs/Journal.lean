import StepGraph.Audit.Recorder
import StepGraph.Proofs.DataFaults

/-!
What writing to the audit trail does. A write either changes the records as its body says, or it is
lost, and then the records are as they were. Nothing but records, outages and the count of lost
writes changes.
-/
namespace StepGraph

open Attempt

namespace Table

variable {ρ : Type} [Numbered ρ]

theorem le_largest {rows : List ρ} {n : Int} (h : largest rows = some n) :
    ∀ r ∈ rows, Numbered.id r ≤ n := by
  induction rows generalizing n with
  | nil => simp
  | cons r rows ih =>
    simp only [largest] at h
    cases hl : largest rows with
    | none =>
      rw [hl] at h
      have hnil : rows = [] := by
        cases rows with
        | nil => rfl
        | cons r' rest =>
          simp only [largest] at hl
          split at hl <;> cases hl
      cases h
      simp [hnil]
    | some m =>
      rw [hl] at h
      cases h
      refine List.forall_mem_cons.2 ⟨Int.le_max_right _ _,fun x hx => ?_⟩
      exact Int.le_trans (ih hl x hx) (Int.le_max_left _ _)

theorem lt_nextId (t : Table ρ) : ∀ r ∈ t.rows, Numbered.id r < t.nextId := by
  intro r hr
  unfold nextId
  cases hl : largest t.rows with
  | none =>
    cases hrows : t.rows with
    | nil =>
      rw [hrows] at hr
      cases hr
    | cons r' rest =>
      rw [hrows] at hl
      simp only [largest] at hl
      split at hl <;> cases hl
  | some n =>
    have := le_largest hl r hr
    simp only [Option.map_some,Option.getD_some]
    omega

theorem ne_nextId (t : Table ρ) : ∀ r ∈ t.rows, Numbered.id r ≠ t.nextId :=
  fun r hr => Int.ne_of_lt (t.lt_nextId r hr)

theorem get?_concat (t : Table ρ) {row : ρ} (h : Numbered.id row = t.nextId) :
    ({ t with rows := t.rows ++ [row] } : Table ρ).get? t.nextId = some row := by
  unfold get?
  simp only
  rw [List.find?_append,List.find?_eq_none.2 fun r hr => by
    simpa using t.ne_nextId r hr]
  simp [h]

theorem get?_update (t : Table ρ) (id : Int) {f : ρ → ρ}
    (hf : ∀ r, Numbered.id (f r) = Numbered.id r) :
    (t.update id f).get? id = (t.get? id).map f := by
  unfold get? update
  simp only
  induction t.rows with
  | nil => rfl
  | cons r rows ih =>
    rw [List.map_cons,List.find?_cons,List.find?_cons]
    cases h : Numbered.id r == id with
    | true => simp [h,hf]
    | false =>
      simp only [h,Bool.false_eq_true,if_false]
      exact ih

theorem get?_of_find {t : Table ρ} {id : Int} {found : Option ρ} (h : t.find id = .ok found) :
    t.get? id = found := by
  unfold find all held at h
  by_cases hp : t.present = true
  · by_cases hi : fitsRecord id = true
    · rw [if_pos hp,if_pos hi] at h
      exact Except.ok.inj h
    · rw [if_pos hp,if_neg hi] at h
      cases h
  · rw [if_neg hp] at h
    cases h

end Table

def ExecutionLog.Blind (f : ExecutionLog → ExecutionLog) : Prop :=
  ∀ (row : ExecutionLog) (id : Int) (extractionLog : Option Int),
    f { row with id := id, extractionLog := extractionLog } =
      { f row with id := id, extractionLog := extractionLog }

theorem ExecutionLog.Blind.numbers {f : ExecutionLog → ExecutionLog} (hf : Blind f)
    (row : ExecutionLog) : f row = { f row with id := row.id, extractionLog := row.extractionLog } :=
  hf row row.id row.extractionLog

theorem ExecutionLog.Blind.id_eq {f : ExecutionLog → ExecutionLog} (hf : Blind f)
    (row : ExecutionLog) : (f row).id = row.id := by rw [hf.numbers row]

def World.popped (w : World) : World := { w with outages := w.outages.tail }

namespace Work

variable {α β : Type}

/-- A body of a write at a world: it changes the records as told, or it ends in a data fault and
changes nothing. -/
def WritesAt (w : World) (Post : World → α → Database → Prop) (body : Work α) : Prop :=
  (∃ f, body.exec w = (.error f,w) ∧ f.isDataFault = true) ∨
    ∃ x db, body.exec w = (.ok x,{ w with db := db }) ∧ Post w x db

def Writes (Post : World → α → Database → Prop) (body : Work α) : Prop :=
  ∀ w, WritesAt w Post body

theorem WritesAt.look {w : World} {Post : World → α → Database → Prop} {r : Except Fault β}
    {q : Work β} {f : β → Work α} (hq : q.exec w = (r,w)) (hr : OnlyDataFault r)
    (hf : ∀ x, r = .ok x → WritesAt w Post (f x)) : WritesAt w Post (q >>= f) := by
  unfold WritesAt
  rw [exec_bind,hq]
  cases r with
  | error e => exact .inl ⟨e,rfl,hr e rfl⟩
  | ok x => exact hf x rfl

theorem WritesAt.set {w : World} {Post : World → α → Database → Prop} {db : Database} {x : α}
    (h : Post w x db) : WritesAt w Post (setDatabase db >>= fun _ => pure x) :=
  .inr ⟨x,db,rfl,h⟩

def FaultsAt (w : World) (P : Fault → Prop) (p : Work α) : Prop :=
  ∀ f, (p.exec w).1 = .error f → P f

theorem FaultsAt.look {w : World} {P : Fault → Prop} {r : Except Fault β} {q : Work β}
    {g : β → Work α} (hq : q.exec w = (r,w)) (hr : ∀ f, r = .error f → P f)
    (hg : ∀ x, r = .ok x → FaultsAt w P (g x)) : FaultsAt w P (q >>= g) := by
  unfold FaultsAt
  rw [exec_bind,hq]
  cases r with
  | error e =>
    intro f hf
    cases hf
    exact hr e rfl
  | ok x => exact hg x rfl

theorem exec_bestEffort (body : Work α) (w : World) :
    (bestEffort body).exec w =
      match body.exec w with
      | (.ok x,w') => (.ok (some x),w')
      | (.error f,w') =>
        if f.isHarmless then (.ok none,{ w' with db := w.db }) else (.error f,w') := by
  have hdatabase : database.exec w = (.ok w.db,w) := rfl
  unfold bestEffort attempt
  rw [exec_bind_ok hdatabase,exec_bind,exec_caught]
  rcases body.exec w with ⟨f | x,w'⟩
  · simp only
    split <;> rfl
  · rfl

theorem bestEffort_cases {Post : World → α → Database → Prop} {body : Work α}
    (hb : Writes Post body) (w : World) :
    (∃ x db, (bestEffort body).exec w = (.ok (some x),{ w with db := db }) ∧ Post w x db) ∨
    (bestEffort body).exec w = (.ok none,w) ∨
      ∃ f, (bestEffort body).exec w = (.error f,w) ∧ f.isDataFault = true := by
  rw [exec_bestEffort]
  rcases hb w with ⟨f,hf,hc⟩ | ⟨x,db,hx,hpost⟩
  · right
    rw [hf]
    simp only
    split
    · exact .inl rfl
    · exact .inr ⟨f,rfl,hc⟩
  · rw [hx]
    exact .inl ⟨x,db,rfl,hpost⟩

theorem exec_forLog (p : Work α) (w : World) :
    (forLog p).exec w =
      match p.exec w with
      | (.ok x,w') => (.ok x,w')
      | (.error f,w') => (.error f,{ w' with lost := w'.lost + 1 }) := by
  change (Attempt.caught p >>= _).exec w = _
  rw [exec_bind,exec_caught]
  rcases p.exec w with ⟨f | x,w'⟩ <;> rfl

theorem exec_logWrite (body : Work α) (w : World) :
    (logWrite body).exec w =
      match (exposed (bestEffort body)).exec w with
      | (.ok (some x),w') => (.ok (some x),w')
      | (.ok none,w') => (.ok none,{ w' with lost := w'.lost + 1 })
      | (.error f,w') => (.error f,{ w' with lost := w'.lost + 1 }) := by
  change (forLog (exposed (bestEffort body)) >>= _).exec w = _
  rw [exec_bind,exec_forLog]
  rcases (exposed (bestEffort body)).exec w with ⟨f | _ | x,w'⟩ <;> rfl

theorem exec_exposed (body : Work (Option α)) (w : World) :
    (exposed body).exec w =
      if w.outages.headD false then (.ok none,w.popped) else body.exec w.popped := by
  obtain ⟨store,db,files,now,calls,http,ai,sftp,mail,offered,outages,lost,names⟩ := w
  match outages with
  | [] => rfl
  | false :: rest => rfl
  | true :: rest => rfl

theorem exposed_cases (body : Work (Option α)) (w : World) :
    (exposed body).exec w = body.exec w.popped ∨ (exposed body).exec w = (.ok none,w.popped) := by
  rw [exec_exposed]
  split
  · exact .inr rfl
  · exact .inl rfl

theorem logWrite_cases {Post : World → α → Database → Prop} {body : Work α} (hb : Writes Post body)
    (w : World) :
    (∃ x db, (logWrite body).exec w = (.ok (some x),{ w.popped with db := db }) ∧
      Post w.popped x db) ∨
    ((logWrite body).exec w).2 = { w.popped with lost := w.lost + 1 } ∧
      (∀ f, ((logWrite body).exec w).1 = .error f → f.isDataFault = true) ∧
      ∀ x, ((logWrite body).exec w).1 = .ok x → x = none := by
  rw [exec_logWrite]
  rcases exposed_cases (bestEffort body) w with he | he
  · rw [he]
    rcases bestEffort_cases hb w.popped with ⟨x,db,hx,hpost⟩ | hn | ⟨f,hf,hc⟩
    · rw [hx]
      exact .inl ⟨x,db,rfl,hpost⟩
    · rw [hn]
      refine .inr ⟨rfl,fun f hf => (by cases hf),fun x hx => ?_⟩
      cases hx
      rfl
    · rw [hf]
      refine .inr ⟨rfl,fun f' hf' => ?_,fun x hx => by cases hx⟩
      cases hf'
      exact hc
  · rw [he]
    refine .inr ⟨rfl,fun f hf => (by cases hf),fun x hx => ?_⟩
    cases hx
    rfl

/-- Of a log write only those faults are told that a write does not pass over. -/
theorem logWrite_faults {w : World} {P : Fault → Prop} {body : Work α}
    (hb : FaultsAt w.popped (fun f => f.isHarmless = true ∨ P f) body) :
    FaultsAt w P (logWrite body) := by
  intro f hf
  rw [exec_logWrite] at hf
  rcases exposed_cases (bestEffort body) w with he | he
  · rw [he,exec_bestEffort] at hf
    rcases hbody : body.exec w.popped with ⟨f' | x,w'⟩ <;> rw [hbody] at hf
    · by_cases hharm : f'.isHarmless = true
      · simp only [if_pos hharm] at hf
        cases hf
      · simp only [if_neg hharm] at hf
        cases hf
        exact (hb _ (congrArg Prod.fst hbody)).resolve_left hharm
    · cases hf
  · rw [he] at hf
    cases hf

theorem logWrite_unless {Post : World → α → Database → Prop} {body : Work α}
    (hb : Writes Post body) :
    Unless World.lost (fun w r w' => ∃ x db, r = .ok (some x) ∧ w' = { w.popped with db := db } ∧
      Post w.popped x db) (logWrite body) := by
  intro w
  rcases logWrite_cases hb w with ⟨x,db,hw,hp⟩ | ⟨hw,-⟩ <;> rw [hw]
  · exact ⟨Nat.le_refl _,fun _ => ⟨x,db,rfl,rfl,hp⟩⟩
  · exact ⟨Nat.le_succ _,fun h => absurd h (Nat.succ_ne_self _)⟩

theorem forLog_unless {p : Work α} {r : World → Except Fault α}
    (hp : ∀ w, p.exec w = (r w,w)) :
    Unless World.lost (fun w r' w' => ∃ x, r w = .ok x ∧ r' = .ok x ∧ w' = w) (forLog p) := by
  intro w
  rw [exec_forLog,hp w]
  rcases hr : r w with f | x
  · exact ⟨Nat.le_succ _,fun h => absurd h (Nat.succ_ne_self _)⟩
  · exact ⟨Nat.le_refl _,fun _ => ⟨x,hr,rfl,rfl⟩⟩

end Work

namespace Recorder

open Work

def StepAdded (run : Int) (n : Node Item) (e : LogEntry) (w : World) (id : Int) (db : Database) :
    Prop :=
  ∃ row : StepLog, db = { w.db with
      stepLogs := { w.db.stepLogs with rows := w.db.stepLogs.rows ++ [row] } } ∧
    (row.id = id ∧ id = w.db.stepLogs.nextId) ∧ row.run = run ∧ row.node = n.id ∧
    row.label = some e.label ∧ row.status = e.status ∧ row.error = e.error

theorem writes_newStep (r : Recorder) (run : Int) (n : Node Item) (e : LogEntry) :
    Writes (StepAdded run n e) (r.newStep run n e) := by
  intro w
  refine .look (q := database) rfl (OnlyDataFault.ok _) ?_
  rintro db ⟨⟩
  refine .look rfl (OnlyDataFault.all _) fun _ _ => .look rfl (OnlyDataFault.heldAll _) fun _ _ => ?_
  refine .look rfl (OnlyDataFault.storeRead _ _) fun _ _ =>
    .look rfl (OnlyDataFault.kept _) fun _ _ => ?_
  refine .look rfl (OnlyDataFault.storeRead _ _) fun _ _ =>
    .look rfl (OnlyDataFault.kept _) fun _ _ => ?_
  refine .look rfl (OnlyDataFault.storeRead _ _) fun _ _ =>
    .look rfl (OnlyDataFault.kept _) fun _ _ => ?_
  exact .set ⟨_,rfl,⟨rfl,rfl⟩,rfl,rfl,rfl,rfl,rfl⟩

def Changed (id : Int) (context : Option Value) (f : ExecutionLog → ExecutionLog) (w : World)
    (_ : Unit) (db : Database) : Prop :=
  ∃ row c now, w.db.executionLogs.get? id = some row ∧ context.mapM Value.kept = .ok c ∧
    db = { w.db with executionLogs := w.db.executionLogs.update id fun row =>
      { f row with context := c.getD row.context, updatedAt := now } }

theorem writes_changeRecord (id : Int) (context : Option Value)
    (f : ExecutionLog → ExecutionLog) :
    Writes (Changed id context f) (changeRecord id context f) := by
  intro w
  refine .look (q := database) rfl (OnlyDataFault.ok _) ?_
  rintro db ⟨⟩
  refine .look rfl (OnlyDataFault.find _ _) fun found hfound => ?_
  have hget := Table.get?_of_find hfound
  cases found with
  | none => exact .inl ⟨_,rfl,rfl⟩
  | some row =>
    refine .look rfl (OnlyDataFault.mapKept context) fun c hc => ?_
    exact .inr ⟨(),_,rfl,row,c,_,hget,hc,rfl⟩

theorem add_none {r : Recorder} (h : r.record? = none) (n : Node Item) (e : LogEntry) :
    r.add n e = pure none := by
  unfold add
  rw [h]

theorem change_none {r : Recorder} (h : r.record? = none) (context : Option Value)
    (f : Time.Moment → ExecutionLog → ExecutionLog) : r.change context f = pure () := by
  unfold change
  rw [h]

theorem add_cases (r : Recorder) (n : Node Item) (e : LogEntry) (w : World) :
    (r.record? = none ∧ (r.add n e).exec w = (.ok none,w)) ∨
    (∃ run id db, r.record? = some run ∧
      (r.add n e).exec w = (.ok (some id),{ w.popped with db := db }) ∧
      StepAdded run n e w.popped id db) ∨
    ((r.add n e).exec w).2 = { w.popped with lost := w.lost + 1 } ∧
      ∀ f, ((r.add n e).exec w).1 = .error f → f.isDataFault = true := by
  cases hr : r.record? with
  | none => exact .inl ⟨rfl,by rw [add_none hr]; rfl⟩
  | some run =>
    right
    unfold add
    rw [hr]
    rcases logWrite_cases (writes_newStep r run n e) w with ⟨id,db,hw,ha⟩ | ⟨hl,hc,-⟩
    · exact .inl ⟨run,id,db,rfl,hw,ha⟩
    · exact .inr ⟨hl,hc⟩

section Faults

variable {r : Recorder} {n : Node Item} {e : LogEntry} {w : World}

structure EntryReadable (w : World) (n : Node Item) (e : LogEntry) : Prop where
  input : ∃ v, w.store.read e.input = .ok v
  output : ∃ v, w.store.read e.output = .ok v
  config : ∃ v, w.store.read n.config? = .ok v

theorem newStep_faults (run : Int) (hr : EntryReadable w n e) :
    FaultsAt w (fun f => f.isHarmless = true ∨ heldAll [some run,r.workflow,e.duration] = .error f)
      (r.newStep run n e) := by
  have kept (v : Value) (f : Fault) (hf : v.kept = .error f) : f.isHarmless = true := by
    unfold Value.kept at hf
    split at hf <;> cases hf
    rfl
  have all (f : Fault) (hf : w.db.stepLogs.all = .error f) : f.isHarmless = true := by
    unfold Table.all at hf
    split at hf <;> cases hf
    rfl
  have readable {i : Item} (hi : ∃ v, w.store.read i = .ok v) (f : Fault)
      (hf : w.store.read i = .error f) : f.isHarmless = true := by
    obtain ⟨v,hv⟩ := hi
    rw [hv] at hf
    cases hf
  refine .look (q := database) (r := .ok w.db) rfl (by simp) ?_
  rintro db ⟨⟩
  refine .look rfl (fun f hf => .inl (all f hf)) fun _ _ => ?_
  refine .look rfl (fun f hf => .inr hf) fun _ _ => ?_
  refine .look rfl (fun f hf => .inl (readable hr.input f hf)) fun input _ => ?_
  refine .look rfl (fun f hf => .inl (kept input f hf)) fun _ _ => ?_
  refine .look rfl (fun f hf => .inl (readable hr.output f hf)) fun output _ => ?_
  refine .look rfl (fun f hf => .inl (kept output f hf)) fun _ _ => ?_
  refine .look rfl (fun f hf => .inl (readable hr.config f hf)) fun config _ => ?_
  refine .look rfl (fun f hf => .inl (kept config f hf)) fun _ _ => ?_
  intro f hf
  cases hf

theorem add_faults (hr : EntryReadable w n e) :
    FaultsAt w (fun f => heldAll [r.record?,r.workflow,e.duration] = .error f) (r.add n e) := by
  intro f hf
  unfold add at hf
  split at hf
  · cases hf
  · rename_i run hrun
    rw [hrun]
    exact logWrite_faults (newStep_faults run ⟨hr.input,hr.output,hr.config⟩) f hf

end Faults

theorem change_cases (r : Recorder) (context : Option Value)
    (f : Time.Moment → ExecutionLog → ExecutionLog) (w : World) :
    (r.record? = none ∧ (r.change context f).exec w = (.ok (),w)) ∨
    (∃ id now db, r.record? = some id ∧
      (r.change context f).exec w = (.ok (),{ w.popped with db := db }) ∧
      Changed id context (f now) w.popped () db) ∨
    ((r.change context f).exec w).2 = { w.popped with lost := w.lost + 1 } ∧
      ∀ f', ((r.change context f).exec w).1 = .error f' → f'.isDataFault = true := by
  cases hr : r.record? with
  | none => exact .inl ⟨rfl,by rw [change_none hr]; rfl⟩
  | some id =>
    right
    unfold change
    rw [hr]
    have hm : moment.exec w = (.ok ((Time.Moment.ofEpoch? w.now).getD default),w) := rfl
    rw [exec_bind_ok hm]
    rw [exec_discard]
    rcases logWrite_cases (writes_changeRecord id context (f _)) w with ⟨x,db,hw,ha⟩ | ⟨hl,hc,-⟩
    · refine .inl ⟨id,_,db,rfl,?_,ha⟩
      rw [hw]
      rfl
    · exact .inr ⟨hl,fun f' hf' => hc f' (eq_error_of_map hf')⟩

theorem mapKept_eq {context : Value} {c : Option Value}
    (h : (some context).mapM Value.kept = .ok c) : c = some context.plain := by
  rw [Option.mapM_some] at h
  unfold Value.kept at h
  split at h
  · cases h
  · cases h
    rfl

structure Rewritten (id : Int) (f : ExecutionLog → ExecutionLog) (w w' : World) : Prop where
  store : w'.store = w.store
  oddNames : w'.oddNames = w.oddNames
  steps : w'.db.stepLogs = w.db.stepLogs
  row : ∃ old, w.db.executionLogs.get? id = some old ∧
    w'.db.executionLogs.get? id = some (f old)

theorem change_unless (r : Recorder) (context : Option Value)
    (f : Time.Moment → ExecutionLog → ExecutionLog) (hf : ∀ now row, (f now row).id = row.id)
    {id : Int} (hid : r.record? = some id) :
    Unless World.lost (fun w done w' => done = .ok () ∧ ∃ c now now',
      context.mapM Value.kept = .ok c ∧ Rewritten id (fun row =>
        { f now row with context := c.getD row.context, updatedAt := now' }) w w')
      (r.change context f) := by
  intro w
  rcases r.change_cases context f w with
    ⟨hn,-⟩ | ⟨id',now,db,hid',hw,row,c,now',hrow,hc,rfl⟩ | ⟨hw,-⟩
  · rw [hn] at hid
    cases hid
  · obtain rfl : id' = id := Option.some.inj (hid'.symm.trans hid)
    rw [hw]
    refine ⟨Nat.le_refl _,fun _ => ⟨rfl,c,now,now',hc,rfl,rfl,rfl,row,hrow,?_⟩⟩
    let write (row : ExecutionLog) : ExecutionLog :=
      { f now row with context := c.getD row.context, updatedAt := now' }
    exact (Table.get?_update w.db.executionLogs id' (f := write) fun r => hf now r).trans
      (congrArg (Option.map write) hrow)
  · rw [hw]
    exact ⟨Nat.le_succ _,fun h => absurd h (Nat.succ_ne_self _)⟩

end Recorder

end StepGraph
