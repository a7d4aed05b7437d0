import StepGraph.Imaging.Filing
import StepGraph.Proofs.Exec
import StepGraph.Proofs.Heap
import StepGraph.Service.Collaborator
import StepGraph.Service.Http
import StepGraph.Service.Delivery
import StepGraph.Service.Profile

/-!
What the services do to the world. A program is unlogged when it neither reads nor writes the audit
trail: with other logs it does the same and leaves those logs. An unlogged program is read-only when
it leaves the world as it is, record-neutral when it leaves the records as they are, and it grows the
store when it writes no container that was there; an append-only program does both of the latter.
Every service of a step is append-only, but for the filing of a document, which adds a record.
-/
namespace StepGraph

/-- The audit trail of a world, with what becomes of writes to it. -/
structure World.Logs where
  executionLogs : Table ExecutionLog
  stepLogs : Table StepLog
  extractionLogs : Table ExtractionLog
  outages : List Bool
  lost : Nat

namespace World

def logs (w : World) : Logs :=
  ⟨w.db.executionLogs,w.db.stepLogs,w.db.extractionLogs,w.outages,w.lost⟩

def withLogs (w : World) (l : Logs) : World :=
  { w with
    db :=
      { w.db with
        executionLogs := l.executionLogs, stepLogs := l.stepLogs,
        extractionLogs := l.extractionLogs }
    outages := l.outages
    lost := l.lost }

@[simp] theorem withLogs_logs (w : World) : w.withLogs w.logs = w := rfl

def OnStore (R : Store → Store → Prop) (w w' : World) : Prop := R w.store w'.store

instance (R : Store → Store → Prop) [IsPreorder Store R] : IsPreorder World (OnStore R) where
  refl w := refl_of R w.store
  trans _ _ _ h h' := trans_of R h h'

def SameRecords (w w' : World) : Prop := w'.db = w.db

instance : IsPreorder World SameRecords where
  refl _ := rfl
  trans _ _ _ h h' := h'.trans h

end World

namespace Work

open Attempt

variable {α β : Type}

@[simp] theorem exec_database (f : Database → Work β) (w : World) :
    (database >>= f).exec w = (f w.db).exec w := rfl

@[simp] theorem exec_bind_of (x : α) (f : α → Work β) (w : World) :
    (Work.of (.ok x) >>= f).exec w = (f x).exec w := rfl

theorem attempt_of_exec {p : Work α} {r : Except Fault α} {w w' : World} (h : p.exec w = (r,w')) :
    (Work.attempt p).exec w = (.ok r,w') := by
  rw [Work.attempt,exec_caught,h]

/-- The audit trail neither decides what a program does nor is changed by it. -/
def Unlogged (p : Work α) : Prop :=
  ∀ (l : World.Logs) (w : World), p.exec (w.withLogs l) = ((p.exec w).1,(p.exec w).2.withLogs l)

theorem Unlogged.logs {p : Work α} (h : Unlogged p) (w : World) : (p.exec w).2.logs = w.logs := by
  have he := congrArg Prod.snd (h w.logs w)
  rw [World.withLogs_logs] at he
  rw [he]
  rfl

theorem Unlogged.bind {p : Work α} {f : α → Work β} (hp : Unlogged p) (hf : ∀ x, Unlogged (f x)) :
    Unlogged (p >>= f) := fun l => Oblivious.bind (hp l) fun x => hf x l

theorem Unlogged.closed : Closed Unlogged where
  pure _ _ _ := rfl
  bind := Unlogged.bind

theorem unlogged_edit (e : Edit α) : Unlogged (edit e) := fun _ _ => rfl

/-- A program that looks at the world, but not at the audit trail. -/
theorem Unlogged.get_bind {k : World → Work α} (hk : ∀ w, Unlogged (k w))
    (hl : ∀ (w : World) (l : World.Logs), k (w.withLogs l) = k w) : Unlogged (get >>= k) :=
  fun l => Oblivious.get_bind (fun w => hk w l) fun w => hl w l

structure RecordNeutral (p : Work α) : Prop where
  unlogged : Unlogged p
  records : Keeps World.SameRecords p

namespace RecordNeutral

theorem bind {p : Work α} {f : α → Work β} (hp : RecordNeutral p) (hf : ∀ x, RecordNeutral (f x)) :
    RecordNeutral (p >>= f) :=
  ⟨hp.unlogged.bind fun x => (hf x).unlogged,hp.records.bind fun x => (hf x).records⟩

theorem closed : Closed RecordNeutral where
  pure x := ⟨fun _ _ => rfl,Keeps.closed.pure x⟩
  bind := bind

theorem of (r : Except Fault α) : RecordNeutral (Work.of r) := ⟨fun _ _ => rfl,.of r⟩

theorem throw (f : Fault) : RecordNeutral (throw f : Work α) := ⟨fun _ _ => rfl,.throw f⟩

theorem edit (e : Edit α) : RecordNeutral (Work.edit e) := ⟨unlogged_edit e,fun _ => rfl⟩

theorem get_bind {k : World → Work α} (hk : ∀ w, RecordNeutral (k w))
    (hl : ∀ (w : World) (l : World.Logs), k (w.withLogs l) = k w) : RecordNeutral (get >>= k) :=
  ⟨.get_bind (fun w => (hk w).unlogged) hl,.bind .get fun w => (hk w).records⟩

end RecordNeutral

structure GrowsStore (p : Work α) : Prop where
  unlogged : Unlogged p
  grows : Keeps (World.OnStore Store.Grows) p

structure AppendOnly (p : Work α) : Prop extends GrowsStore p, RecordNeutral p

structure ReadOnly (p : Work α) : Prop where
  unlogged : Unlogged p
  same : Keeps Eq p

namespace ReadOnly

theorem keeps {p : Work α} (h : ReadOnly p) (R : World → World → Prop) [IsPreorder World R] :
    Keeps R p := h.same.mono fun w _ he => he ▸ refl_of R w

theorem appendOnly {p : Work α} (h : ReadOnly p) : AppendOnly p where
  unlogged := h.unlogged
  grows := h.keeps _
  records := h.keeps _

theorem exec {p : Work α} (h : ReadOnly p) (w : World) : p.exec w = ((p.exec w).1,w) :=
  Prod.ext rfl (h.same w).symm

theorem found {p : Work α} {f : α → Work β} {w w' : World} {y : β} (hp : ReadOnly p)
    (h : (p >>= f).exec w = (.ok y,w')) :
    ∃ x, (p.exec w).1 = .ok x ∧ (f x).exec w = (.ok y,w') := by
  obtain ⟨x,w₁,hx,hf⟩ := exec_bind_eq_ok h
  have hw := hp.exec w
  rw [hx] at hw
  obtain rfl : w₁ = w := congrArg Prod.snd hw
  exact ⟨x,congrArg Prod.fst hx,hf⟩

theorem bind {p : Work α} {f : α → Work β} (hp : ReadOnly p) (hf : ∀ x, ReadOnly (f x)) :
    ReadOnly (p >>= f) :=
  ⟨hp.unlogged.bind fun x => (hf x).unlogged,hp.same.bind fun x => (hf x).same⟩

theorem of (r : Except Fault α) : ReadOnly (Work.of r) := ⟨fun _ _ => rfl,.of r⟩

theorem found_of {r : Except Fault α} {f : α → Work β} {w w' : World} {y : β}
    (h : (Work.of r >>= f).exec w = (.ok y,w')) : ∃ x, r = .ok x ∧ (f x).exec w = (.ok y,w') :=
  (of r).found h

theorem throw (f : Fault) : ReadOnly (throw f : Work α) := ⟨fun _ _ => rfl,.throw f⟩

theorem closed : Closed ReadOnly where
  pure x := ⟨fun _ _ => rfl,Keeps.closed.pure x⟩
  bind := bind

theorem get_bind {k : World → Work α} (hk : ∀ w, ReadOnly (k w))
    (hl : ∀ (w : World) (l : World.Logs), k (w.withLogs l) = k w) : ReadOnly (get >>= k) :=
  ⟨.get_bind (fun w => (hk w).unlogged) hl,.bind .get fun w => (hk w).same⟩

theorem database_bind {k : Database → Work α} (hk : ∀ db, ReadOnly (k db))
    (hl : ∀ (w : World) (l : World.Logs), k (w.withLogs l).db = k w.db) :
    ReadOnly (database >>= k) :=
  get_bind (k := fun w => k w.db) (fun w => hk w.db) hl

theorem store : ReadOnly Work.store := get_bind (fun _ => closed.pure _) fun _ _ => rfl

theorem read (i : Item) : ReadOnly (Work.read i) := store.bind fun _ => of _

theorem scope (i : Item) : ReadOnly (Work.scope i) := store.bind fun _ => closed.pure _

theorem moment : ReadOnly Work.moment := get_bind (fun _ => closed.pure _) fun _ _ => rfl

theorem lookup (root : Item) (path : Value) : ReadOnly (Work.edit (Edit.lookup root path)) where
  unlogged := unlogged_edit _
  same w := by
    unfold Edit.lookup
    split <;> rfl

theorem require (c : Collaborator) : ReadOnly (Work.require c) := by
  refine get_bind (fun w => ?_) fun w l => by cases c <;> rfl
  split
  · exact closed.pure _
  · exact throw _

theorem provider : ReadOnly Ai.provider := by
  refine get_bind (fun w => ?_) fun _ _ => rfl
  split
  · exact closed.pure _
  · exact throw _

theorem secondaryApi (id : Value) : ReadOnly (Profile.secondary id) := by
  unfold Profile.secondary
  refine closed.guard (throw _) fun _ => ?_
  refine database_bind (fun db => (of _).bind fun i => (of _).bind fun r => ?_) fun _ _ => rfl
  split
  · exact closed.pure _
  · exact (of _).bind fun t => throw _

theorem mainApi : ReadOnly Profile.main := by
  refine database_bind (fun db => (of _).bind fun _ => database_bind (fun db => ?_)
    fun _ _ => rfl) fun _ _ => rfl
  split <;> exact closed.pure _

theorem api (source id : Value) : ReadOnly (Profile.api source id) := by
  unfold Profile.api
  split
  · exact secondaryApi id
  · exact mainApi

theorem choose {ρ : Type} [Numbered ρ] (t : Table ρ) (isDefault : ρ → Bool) (id : Value)
    (missing : Fault) : ReadOnly (Profile.choose t isDefault id missing) := by
  unfold Profile.choose
  simp only
  split
  · refine (of _).bind fun i => (of _).bind fun found => ?_
    split
    · exact closed.pure _
    · exact throw _
  · refine (of _).bind fun _ => (closed.pure _).bind fun found => ?_
    split
    · exact closed.pure _
    · exact throw _

theorem sftpProfile (id : Value) : ReadOnly (Profile.sftp id) :=
  database_bind (fun db => (choose db.sftp _ id _).bind fun _ => closed.pure _) fun _ _ => rfl

theorem mailProfile (id : Value) : ReadOnly (Profile.mail id) :=
  database_bind (fun db => (choose db.mail _ id _).bind fun _ => closed.pure _) fun _ _ => rfl

theorem bucket (id : Value) : ReadOnly (Filing.bucket id) := by
  refine database_bind (fun db => (of _).bind fun i => (of _).bind fun r => ?_) fun _ _ => rfl
  split
  · exact closed.pure _
  · exact (of _).bind fun t => throw _

theorem documentType (id : Value) : ReadOnly (Filing.documentType id) := by
  refine database_bind (fun db => (of _).bind fun i => (of _).bind fun r => ?_) fun _ _ => rfl
  split
  · exact closed.pure _
  · exact (of _).bind fun t => throw _

end ReadOnly

namespace GrowsStore

theorem bind {p : Work α} {f : α → Work β} (hp : GrowsStore p) (hf : ∀ x, GrowsStore (f x)) :
    GrowsStore (p >>= f) :=
  ⟨hp.unlogged.bind fun x => (hf x).unlogged,hp.grows.bind fun x => (hf x).grows⟩

theorem attempt {p : Work α} (h : GrowsStore p) : GrowsStore (Work.attempt p) where
  unlogged l := Oblivious.caught (h.unlogged l)
  grows := h.grows.caught

end GrowsStore

namespace AppendOnly

theorem bind {p : Work α} {f : α → Work β} (hp : AppendOnly p) (hf : ∀ x, AppendOnly (f x)) :
    AppendOnly (p >>= f) :=
  ⟨hp.toGrowsStore.bind fun x => (hf x).toGrowsStore,hp.records.bind fun x => (hf x).records⟩

theorem of (r : Except Fault α) : AppendOnly (Work.of r) := (ReadOnly.of r).appendOnly

theorem throw (f : Fault) : AppendOnly (throw f : Work α) := (ReadOnly.throw f).appendOnly

theorem closed : Closed AppendOnly where
  pure x := (ReadOnly.closed.pure x).appendOnly
  bind := bind

theorem attempt {p : Work α} (h : AppendOnly p) : AppendOnly (Work.attempt p) :=
  ⟨h.toGrowsStore.attempt,h.records.caught⟩

theorem get_bind {k : World → Work α} (hk : ∀ w, AppendOnly (k w))
    (hl : ∀ (w : World) (l : World.Logs), k (w.withLogs l) = k w) : AppendOnly (get >>= k) where
  unlogged := .get_bind (fun w => (hk w).unlogged) hl
  grows := .bind .get fun w => (hk w).grows
  records := .bind .get fun w => (hk w).records

theorem database_bind {k : Database → Work α} (hk : ∀ db, AppendOnly (k db))
    (hl : ∀ (w : World) (l : World.Logs), k (w.withLogs l).db = k w.db) :
    AppendOnly (database >>= k) :=
  get_bind (k := fun w => k w.db) (fun w => hk w.db) hl

theorem set_bind {f : World → World} {k : World → Work α}
    (hf : ∀ (w : World) (l : World.Logs), f (w.withLogs l) = (f w).withLogs l)
    (hs : ∀ w, (f w).store = w.store ∧ (f w).db = w.db) (hk : ∀ w, AppendOnly (k w))
    (hl : ∀ (w : World) (l : World.Logs), k (w.withLogs l) = k w) :
    AppendOnly (get >>= fun w => set (f w) >>= fun _ => k w) where
  unlogged l w := by
    change (k (w.withLogs l)).exec (f (w.withLogs l)) = _
    rw [hf,hl]
    exact (hk w).unlogged l (f w)
  grows w := by
    have h : (f w).store.Grows ((k w).exec (f w)).2.store := (hk w).grows (f w)
    rw [(hs w).1] at h
    exact h
  records w := ((hk w).records (f w)).trans (hs w).2

theorem modify {f : World → World}
    (hf : ∀ (w : World) (l : World.Logs), f (w.withLogs l) = (f w).withLogs l)
    (hs : ∀ w, (f w).store = w.store ∧ (f w).db = w.db) : AppendOnly (modify f) where
  unlogged l w := by
    change (Except.ok PUnit.unit,f (w.withLogs l)) = _
    rw [hf]
    rfl
  grows w := by
    change w.store.Grows (f w).store
    rw [(hs w).1]
    exact refl_of Store.Grows w.store
  records w := (hs w).2

theorem edit {e : Edit α} (he : Keeps Store.Grows e) : AppendOnly (Work.edit e) where
  unlogged := unlogged_edit e
  grows w := he w.store
  records := (RecordNeutral.edit e).records

theorem store : AppendOnly Work.store := ReadOnly.store.appendOnly

theorem read (i : Item) : AppendOnly (Work.read i) := (ReadOnly.read i).appendOnly

theorem scope (i : Item) : AppendOnly (Work.scope i) := (ReadOnly.scope i).appendOnly

theorem moment : AppendOnly Work.moment := ReadOnly.moment.appendOnly

theorem plant (v : Value) : AppendOnly (Work.plant v) := edit fun s => s.plant_grows v

theorem newObject (es : Entries Item) : AppendOnly (Work.newObject es) :=
  edit fun s => s.alloc_grows _

theorem newList (xs : List Item) : AppendOnly (Work.newList xs) := edit fun s => s.alloc_grows _

theorem note (c : Call) : AppendOnly (Work.note c) := modify (fun _ _ => rfl) fun _ => ⟨rfl,rfl⟩

theorem require (c : Collaborator) : AppendOnly (Work.require c) := (ReadOnly.require c).appendOnly

theorem provider : AppendOnly Ai.provider := ReadOnly.provider.appendOnly

theorem complete (parts : List Value) (temperature : Float) (maxTokens : Int) :
    AppendOnly (Ai.complete parts temperature maxTokens) := by
  refine provider.bind fun p => (note _).bind fun _ => ?_
  rcases p.script.next Ai.emptyCompletion with ⟨reply,rest⟩
  refine bind (modify ?_ ?_) fun _ => ?_
  · exact fun _ _ => rfl
  · exact fun _ => ⟨rfl,rfl⟩
  · cases reply with
    | completion s => exact closed.pure _
    | failure m => exact throw _

theorem reply : AppendOnly Http.reply :=
  set_bind (f := fun w => { w with http := (w.http.next Http.emptyAnswer).2 })
    (fun _ _ => rfl) (fun _ => ⟨rfl,rfl⟩) (fun _ => closed.pure _) fun _ _ => rfl

theorem send (r : HttpRequest) : AppendOnly (Http.send r) := by
  refine (note _).bind fun _ => reply.bind fun reply => ?_
  cases reply with
  | failure m => exact throw _
  | answer a => exact (of _).bind fun v => (plant v).bind fun x => closed.pure _

theorem api (source id : Value) : AppendOnly (Profile.api source id) :=
  (ReadOnly.api source id).appendOnly

theorem sftpProfile (id : Value) : AppendOnly (Profile.sftp id) :=
  (ReadOnly.sftpProfile id).appendOnly

theorem mailProfile (id : Value) : AppendOnly (Profile.mail id) :=
  (ReadOnly.mailProfile id).appendOnly

theorem ensureDirectory (path : String) : AppendOnly (Sftp.ensureDirectory path) where
  unlogged l w := by
    unfold Sftp.ensureDirectory
    rw [exec_bind_ok (exec_get _),exec_bind_ok (exec_get _)]
    simp only
    split <;> rename_i h
    · rw [if_pos (show w.sftp.dirs.contains path = true from h)]
      rfl
    · rw [if_neg (show ¬ w.sftp.dirs.contains path = true from h)]
      rfl
  grows w := by
    unfold Sftp.ensureDirectory
    rw [exec_bind_ok (exec_get _)]
    simp only
    split <;> exact refl_of Store.Grows w.store
  records w := by
    unfold Sftp.ensureDirectory
    rw [exec_bind_ok (exec_get _)]
    simp only
    split <;> rfl

theorem transfer (directory path : String) (data : ByteArray) :
    AppendOnly (Sftp.transfer directory path data) := by
  refine (closed.forM fun p _ => ensureDirectory p).bind fun _ => get_bind (fun w => ?_) fun _ _ => rfl
  split
  · exact throw _
  · exact note _

theorem upload (s : SftpSettings) (directory : String) (filename : Value) (data : ByteArray) :
    AppendOnly (Sftp.upload s directory filename data) := by
  unfold Sftp.upload
  extract_lets key jp
  have rest (name : String) : AppendOnly (jp name) := by
    refine (note _).bind fun _ => (note _).bind fun _ => get_bind (fun w => ?_) fun _ _ => rfl
    split
    · exact (note _).bind fun _ => throw _
    · exact (transfer _ _ _).attempt.bind fun done => (note _).bind fun _ => (note _).bind fun _ =>
        (of _).bind fun _ => closed.pure _
  split
  · exact (closed.pure _).bind rest
  · exact (throw _).bind rest

theorem login (s : MailSettings) : AppendOnly (Mail.login s) := by
  unfold Mail.login
  split
  · split
    · exact note _
    · exact closed.pure _
  · exact closed.pure _

theorem deliver (s : MailSettings) (m : Mail.Message) : AppendOnly (Mail.deliver s m) := by
  unfold Mail.deliver
  refine closed.guard (note _) fun _ => (login s).bind fun _ => get_bind (fun w => ?_) fun _ _ => rfl
  split
  · exact throw _
  · exact note _

theorem sendMail (s : MailSettings) (m : Mail.Message) : AppendOnly (Mail.send s m) := by
  refine (note _).bind fun _ => get_bind (fun w => ?_) fun _ _ => rfl
  split
  · exact throw _
  · exact (deliver s m).attempt.bind fun r => (note _).bind fun _ => of r

theorem write (bucket key : String) (data : ByteArray) :
    AppendOnly (Storage.write bucket key data) := by
  refine get_bind (fun w => (of _).bind fun p => ?_) fun _ _ => rfl
  refine set_bind (f := fun w => { w with files := (w.files.write p data).1 })
    (fun _ _ => rfl) (fun _ => ⟨rfl,rfl⟩) (fun w => ?_) fun _ _ => rfl
  split
  · exact throw _
  · exact closed.pure _

theorem bucket (id : Value) : AppendOnly (Filing.bucket id) := (ReadOnly.bucket id).appendOnly

theorem documentType (id : Value) : AppendOnly (Filing.documentType id) :=
  (ReadOnly.documentType id).appendOnly

theorem exec_record (make : Int → Time.Moment → FiledDocument) (w : World) :
    (Filing.record make).exec w =
      match w.db.documents.all with
      | .error f => (.error f,w)
      | .ok _ =>
        let added := w.db.documents.insert fun id => make id ((Time.Moment.ofEpoch? w.now).getD default)
        (.ok added.2,{ w with db := { w.db with documents := added.1 } }) := by
  change (Work.of w.db.documents.all >>= _).exec w = _
  rcases w.db.documents.all with f | rows <;> rfl

theorem millis : AppendOnly Filing.millis := get_bind (fun _ => closed.pure _) fun _ _ => rfl

theorem defaultPath (t : DocumentType) (detailLine : String) :
    AppendOnly (Filing.defaultPath t detailLine) := millis.bind fun _ => closed.pure _

theorem get (bucketId typeId : Value) (detailLine : String) :
    AppendOnly (Filing.get bucketId typeId detailLine) := by
  refine (bucket bucketId).bind fun b => database_bind (fun db => ?_) fun _ _ => rfl
  refine (of _).bind fun typeNumber => (of _).bind fun rows => ?_
  split
  · exact closed.pure _
  · exact throw _

end AppendOnly

namespace GrowsStore

theorem record (make : Int → Time.Moment → FiledDocument) : GrowsStore (Filing.record make) where
  unlogged l w := by
    rw [AppendOnly.exec_record,AppendOnly.exec_record]
    change (match w.db.documents.all with
      | .error f => _
      | .ok _ => _) = _
    rcases w.db.documents.all with f | rows <;> rfl
  grows w := by
    rw [AppendOnly.exec_record]
    rcases w.db.documents.all with f | rows <;> exact refl_of Store.Grows w.store

theorem put (bucketId typeId : Value) (s : Filing.Submission) :
    GrowsStore (Filing.put bucketId typeId s) := by
  unfold Filing.put
  refine (AppendOnly.bucket bucketId).toGrowsStore.bind fun b =>
    (AppendOnly.documentType typeId).toGrowsStore.bind fun t => ?_
  extract_lets jp
  have rest (path : String) : GrowsStore (jp path) :=
    (AppendOnly.closed.map (.write _ _ _) _).toGrowsStore.bind fun _ =>
      (AppendOnly.of _).toGrowsStore.bind fun name =>
      (record _).bind fun d => (AppendOnly.closed.pure _).toGrowsStore
  split
  · exact (AppendOnly.closed.pure _).toGrowsStore.bind rest
  · exact (AppendOnly.defaultPath _ _).toGrowsStore.bind rest

end GrowsStore

/-- An append-only program that calls nobody. -/
structure CallFree (p : Work α) : Prop where
  appendOnly : AppendOnly p
  calls : ∀ w, (p.exec w).2.calls = w.calls

namespace CallFree

theorem of (r : Except Fault α) : CallFree (Work.of r) := ⟨.of r,fun _ => rfl⟩

theorem read (i : Item) : CallFree (Work.read i) := ⟨.read i,fun _ => rfl⟩

theorem moment : CallFree Work.moment := ⟨.moment,fun _ => rfl⟩

theorem plant (v : Value) : CallFree (Work.plant v) := ⟨.plant v,fun _ => rfl⟩

theorem newObject (es : Entries Item) : CallFree (Work.newObject es) := ⟨.newObject es,fun _ => rfl⟩

end CallFree

end Work

end StepGraph
