import StepGraph.Imaging.Indexing
import StepGraph.Proofs.Effects
import StepGraph.Proofs.StoredFile

/-!
What becomes of a scanned document. When the call returns, one record was added and the bytes of the
document are found where the record says: it is filed by the first barcode that a pattern fits, or
it waits with the reason. A call that ends in a fault adds no record.
-/
namespace StepGraph

open Attempt Work

def Database.withWaiting (db : Database) (q : WaitingDocument) : Database :=
  { db with waiting := { db.waiting with rows := db.waiting.rows ++ [q] } }

def Database.withFiled (db : Database) (d : FiledDocument) : Database :=
  { db with documents := { db.documents with rows := db.documents.rows ++ [d] } }

def World.OffRecord (w w' : World) : Prop :=
  ∃ calls ai files, w' = { w with calls := calls, ai := ai, files := files }

instance : IsPreorder World World.OffRecord where
  refl w := ⟨w.calls,w.ai,w.files,rfl⟩
  trans := by
    rintro w _ _ ⟨_,_,_,rfl⟩ ⟨calls,ai,files,rfl⟩
    exact ⟨calls,ai,files,rfl⟩

theorem World.OffRecord.sameRecords {w w' : World} (h : w.OffRecord w') : w.SameRecords w' := by
  obtain ⟨_,_,_,rfl⟩ := h
  rfl

namespace Work

variable {α β : Type}

/-- A program that adds no record when it ends in a fault. -/
def Recordless (p : Work α) : Prop :=
  ∀ w f w', p.exec w = (.error f,w') → w.SameRecords w'

theorem Recordless.behind {p : Work α} {f : α → Work β} (hp : Keeps World.SameRecords p)
    (hf : ∀ x, Recordless (f x)) : Recordless (p >>= f) := by
  intro w e w' h
  rcases exec_bind_eq_error h with h | ⟨x,w₁,hx,h⟩
  · have := hp w
    rwa [h] at this
  · have hw := hp w
    rw [hx] at hw
    exact trans_of World.SameRecords hw (hf x _ _ _ h)

theorem Recordless.map {p : Work α} (hp : Recordless p) (f : α → β) : Recordless (f <$> p) := by
  intro w e w' h
  rw [exec_map] at h
  obtain ⟨he,hw⟩ := Prod.mk.inj h
  exact hp w e w' (Prod.ext (eq_error_of_map he) hw)

end Work

namespace Barcode

end Barcode

namespace Indexing

def typeNames (db : Database) : List String :=
  (db.documentTypes.sorted.filter (·.isActive)).map (·.name)

def NoLater (p p' : StoredPattern) : Prop :=
  p.priority < p'.priority ∨ p.priority = p'.priority ∧ p.id ≤ p'.id

def Unfit (db : Database) (barcode : String) : Prop :=
  ∀ p ∈ db.patterns.rows, p.isActive = true → p.pattern.match? (typeNames db) barcode = none

/-- The first barcode that a pattern in use fits, with the first pattern that fits it. -/
structure Chosen (db : Database) (barcodes : List String) (p : StoredPattern)
    (m : Barcode.Match) : Prop where
  inUse : p ∈ db.patterns.rows ∧ p.isActive = true
  fits : ∃ before barcode after, barcodes = before ++ barcode :: after ∧
    (∀ b ∈ before, Unfit db b) ∧ p.pattern.match? (typeNames db) barcode = some m ∧
    ∀ p' ∈ db.patterns.rows, p'.isActive = true →
      (p'.pattern.match? (typeNames db) barcode).isSome → NoLater p p'

def tried (db : Database) : List StoredPattern :=
  (db.patterns.rows.filter (·.isActive)).mergeSort patternFirst

def TypeNamed (db : Database) (name : String) (t : DocumentType) : Prop :=
  t ∈ db.documentTypes.rows ∧ t.isActive = true ∧ Text.lower t.name = Text.lower name

theorem complete_offRecord (parts : List Value) (temperature : Float) (maxTokens : Int) :
    Keeps World.OffRecord (Ai.complete parts temperature maxTokens) := by
  unfold Ai.complete
  apply (ReadOnly.provider.keeps World.OffRecord).bind
  intro p
  have hnote (c : Call) : Keeps World.OffRecord (Work.note c) := fun w =>
    ⟨w.calls ++ [c],w.ai,w.files,rfl⟩
  apply (hnote _).bind
  intro _
  rcases p.script.next Ai.emptyCompletion with ⟨reply,rest⟩
  refine Keeps.bind ?_ fun _ => ?_
  · intro w
    exact ⟨w.calls,some { p with script := rest },w.files,rfl⟩
  · cases reply with
    | completion s => exact Keeps.closed.pure s
    | failure m => exact .throw _

theorem scan_offRecord (attempts : Int) (pdf : String) :
    Keeps World.OffRecord (scan attempts pdf) := by
  have hprovider : Keeps World.OffRecord (discard Ai.provider) :=
    Keeps.closed.map (ReadOnly.provider.keeps World.OffRecord) _
  have hask : Keeps World.OffRecord (scanOnce pdf) := complete_offRecord _ _ _
  exact hprovider.bind fun _ => (hask.retry _ _).bind fun _ => .of _

theorem scan_sameRecords (attempts : Int) (pdf : String) :
    Keeps World.SameRecords (scan attempts pdf) :=
  (scan_offRecord attempts pdf).mono fun _ _ h => h.sameRecords

theorem write_offRecord (folder path : String) (data : ByteArray) :
    Keeps World.OffRecord (Storage.write folder path data) := by
  intro w
  rw [Storage.write_exec]
  split
  · exact ⟨w.calls,w.ai,_,rfl⟩
  · exact refl_of World.OffRecord w

theorem store_offRecord (bucket : Int) (path : String) (data : ByteArray) :
    Keeps World.OffRecord (store bucket path data) :=
  Keeps.closed.map (write_offRecord _ path data) _

theorem store_sameRecords (bucket : Int) (path : String) (data : ByteArray) :
    Keeps World.SameRecords (store bucket path data) :=
  (store_offRecord bucket path data).mono fun _ _ h => h.sameRecords

theorem read_stored {bucket : Int} {path : String} {data : ByteArray} {w w' : World}
    (h : (store bucket path data).exec w = (.ok ⟨⟩,w')) :
    ∀ w'' : World, w''.files = w'.files →
      (Storage.read (Filing.bucketFolder bucket) path).exec w'' = (.ok data,w'') := by
  unfold store at h
  rw [exec_discard] at h
  rcases hw : (Storage.write (Filing.bucketFolder bucket) path data).exec w with ⟨f | key,w₁⟩ <;>
    rw [hw] at h <;> cases h
  exact (Storage.read_written hw).2

theorem enqueue_exec (make : Int → WaitingDocument) (w : World) :
    (enqueue make).exec w =
      let added := w.db.waiting.insert make
      match w.db.waiting.all, heldAll [added.2.bucket] with
      | .error f, _ => (.error f,w)
      | _, .error f => (.error f,w)
      | .ok _, .ok _ => (.ok ⟨⟩,{ w with db := { w.db with waiting := added.1 } }) := by
  change (Work.of w.db.waiting.all >>= fun _ =>
    Work.of (heldAll [(w.db.waiting.insert make).2.bucket]) >>= fun _ =>
      Work.setDatabase { w.db with waiting := (w.db.waiting.insert make).1 }).exec w = _
  simp only
  generalize heldAll [(w.db.waiting.insert make).2.bucket] = held
  rcases w.db.waiting.all with f | rows
  · rfl
  · rcases held with f | u <;> rfl

theorem enqueue_ok {make : Int → WaitingDocument} {u : Unit} {w w' : World}
    (h : (enqueue make).exec w = (.ok u,w')) :
    ∃ q, q = make w.db.waiting.nextId ∧ w' = { w with db := w.db.withWaiting q } := by
  rw [enqueue_exec] at h
  simp only at h
  split at h <;> cases h
  exact ⟨_,rfl,rfl⟩

theorem record_ok {make : Int → Time.Moment → FiledDocument} {d : FiledDocument} {w w' : World}
    (h : (Filing.record make).exec w = (.ok d,w')) : ∃ now,
    d = make w.db.documents.nextId now ∧ w' = { w with db := w.db.withFiled d } := by
  rw [AppendOnly.exec_record] at h
  split at h <;> cases h
  exact ⟨_,rfl,rfl⟩

theorem enqueue_recordless (make : Int → WaitingDocument) : Recordless (enqueue make) := by
  intro w f w' h
  rw [enqueue_exec] at h
  simp only at h
  split at h <;> cases h <;> rfl

theorem record_recordless (make : Int → Time.Moment → FiledDocument) :
    Recordless (Filing.record make) := by
  intro w f w' h
  rw [AppendOnly.exec_record] at h
  split at h <;> cases h
  rfl

theorem wait_recordless (a : Arrival) (name path : String) (data : ByteArray)
    (barcodes : List String) (reason : String) :
    Recordless (wait a name path data barcodes reason) := by
  apply Recordless.behind (store_sameRecords _ _ _)
  intro _
  apply Recordless.map (enqueue_recordless _)

theorem file_recordless (bucket : Int) (t : DocumentType) (m : Barcode.Match) (name path : String)
    (data : ByteArray) : Recordless (file bucket t m name path data) := by
  apply Recordless.behind (store_sameRecords _ _ _)
  intro _
  apply Recordless.behind (Keeps.of _)
  intro _
  apply Recordless.map (record_recordless _)

def Found (w : World) (bucket : Int) (path : String) (data : ByteArray) : Prop :=
  (Storage.read (Filing.bucketFolder bucket) path).exec w = (.ok data,w)

/-- One document was filed, and nothing else was recorded. -/
structure Filed (w w' : World) (data : ByteArray) (path : String) (d : FiledDocument) : Prop where
  added : w'.db = w.db.withFiled d
  path : d.storagePath = path
  size : d.size = some (data.size : Int)
  found : Found w' d.bucket d.storagePath data

/-- One document was queued with its barcodes and the reason, and nothing else was recorded. -/
structure Queued (w w' : World) (data : ByteArray) (path : String) (barcodes : List String)
    (reason : String) (q : WaitingDocument) : Prop where
  added : w'.db = w.db.withWaiting q
  path : q.storagePath = path
  size : q.size = some (data.size : Int)
  pending : q.status = "pending"
  barcodes : q.barcodes = barcodes
  reason : q.reason = some reason
  found : ∃ bucket, q.bucket = some bucket ∧ Found w' bucket q.storagePath data

theorem wait_ok {a : Arrival} {name path : String} {data : ByteArray} {barcodes : List String}
    {reason : String} {o : Outcome} {w w' : World}
    (h : (wait a name path data barcodes reason).exec w = (.ok o,w')) :
    o = .waiting reason ∧
      ∃ q, Queued w w' data path barcodes reason q ∧ q.bucket = some a.bucket := by
  unfold wait at h
  obtain ⟨_,w₁,hstore,h⟩ := exec_bind_eq_ok h
  obtain ⟨_,w₂,hqueue,h⟩ := exec_bind_eq_ok h
  cases h
  have hdb := store_sameRecords a.bucket path data w
  rw [hstore] at hdb
  have hread := read_stored hstore
  obtain ⟨q,hq,rfl⟩ := enqueue_ok hqueue
  have hadded : w₁.db.withWaiting q = w.db.withWaiting q := congrArg (·.withWaiting q) hdb
  subst hq
  exact ⟨rfl,_,⟨hadded,rfl,rfl,rfl,rfl,rfl,a.bucket,rfl,hread _ rfl⟩,rfl⟩

theorem file_ok {bucket : Int} {t : DocumentType} {m : Barcode.Match} {name path : String}
    {data : ByteArray} {o : Outcome} {w w' : World}
    (h : (file bucket t m name path data).exec w = (.ok o,w')) :
    ∃ d, Filed w w' data path d ∧ d.bucket = bucket ∧ d.type = t.id ∧ d.detailLine = m.detailLine ∧
      d.billNumber = some "" ∧ o = .filed d.id m.documentType m.detailLine := by
  unfold file at h
  obtain ⟨_,w₁,hstore,h⟩ := exec_bind_eq_ok h
  obtain ⟨_,w₂,hheld,h⟩ := exec_bind_eq_ok h
  obtain ⟨d,w₃,hrecord,h⟩ := exec_bind_eq_ok h
  cases h
  have hdb := store_sameRecords bucket path data w
  rw [hstore] at hdb
  have hread := read_stored hstore
  obtain rfl : w₁ = w₂ := congrArg Prod.snd hheld
  obtain ⟨now,hd,rfl⟩ := record_ok hrecord
  have hadded : w₁.db.withFiled d = w.db.withFiled d := congrArg (·.withFiled d) hdb
  subst hd
  exact ⟨_,⟨hadded,rfl,rfl,hread _ rfl⟩,rfl,rfl,rfl,rfl,rfl⟩

/-- How a document was filed: by the pattern that was chosen, under a type in use with the name that
was read, in the bucket of the pattern if it has one. -/
structure Files (w w' : World) (a : Arrival) (data : ByteArray) (r : Report) (d : FiledDocument) :
    Prop extends Filed w w' data r.storagePath d where
  by_pattern : ∃ p m t, Chosen w.db r.barcodes p m ∧ TypeNamed w.db m.documentType t ∧
    d.bucket = bucketOr m.bucket a.bucket ∧ d.type = t.id ∧ d.detailLine = m.detailLine ∧
    r.outcome = .filed d.id m.documentType m.detailLine

theorem activeTypes_ok {w w' : World} {types : List DocumentType}
    (h : activeTypes.exec w = (.ok types,w')) :
    types = w.db.documentTypes.sorted.filter (·.isActive) ∧ w' = w := by
  change (Work.of w.db.documentTypes.all >>= fun _ => pure _).exec w = _ at h
  obtain ⟨_,w₁,hall,h⟩ := exec_bind_eq_ok h
  cases h
  exact ⟨rfl,(congrArg Prod.snd hall).symm⟩

theorem activePatterns_ok {w w' : World} {patterns : List StoredPattern}
    (h : activePatterns.exec w = (.ok patterns,w')) : patterns = tried w.db ∧ w' = w := by
  change (Work.of w.db.patterns.all >>= fun rows => pure _).exec w = _ at h
  obtain ⟨rows,w₁,hall,h⟩ := exec_bind_eq_ok h
  cases h
  have hrows : w.db.patterns.all = .ok rows := congrArg Prod.fst hall
  unfold Table.all at hrows
  split at hrows <;> cases hrows
  exact ⟨rfl,(congrArg Prod.snd hall).symm⟩

def settle (a : Arrival) (name path : String) (data : ByteArray) (barcodes : List String)
    (types : List DocumentType) (patterns : List StoredPattern) : Work Outcome :=
  match firstMatch? (types.map (·.name)) patterns barcodes with
  | none => wait a name path data barcodes (unmatchedReason barcodes)
  | some m =>
    match typeNamed? types m.documentType with
    | none => wait a name path data barcodes (unknownTypeReason m.documentType)
    | some t => file (bucketOr m.bucket a.bucket) t m name path data

def arrivalName (a : Arrival) : String := (a.filename.filter (!·.isEmpty)).getD "document.pdf"

theorem index_eq (attempts : Int) (a : Arrival) : index attempts a =
    Work.of (Payload.decoded a.pdf) >>= fun data =>
      Filing.millis >>= fun millis =>
        scan attempts a.pdf >>= fun barcodes =>
          activeTypes >>= fun types =>
            activePatterns >>= fun patterns =>
              let path := "imaging/" ++ millis ++ "-" ++ arrivalName a
              (fun o => ⟨barcodes,path,o⟩) <$>
                settle a (arrivalName a) path data barcodes types patterns := by
  unfold index settle
  refine bind_congr fun data => bind_congr fun millis => bind_congr fun barcodes =>
    bind_congr fun types => bind_congr fun patterns => ?_
  simp only [map_eq_pure_bind]
  cases firstMatch? (types.map (·.name)) patterns barcodes with
  | none => rfl
  | some m =>
    simp only
    cases typeNamed? types m.documentType <;> rfl

theorem settle_recordless (a : Arrival) (name path : String) (data : ByteArray)
    (barcodes : List String) (types : List DocumentType) (patterns : List StoredPattern) :
    Recordless (settle a name path data barcodes types patterns) := by
  unfold settle
  split
  · exact wait_recordless _ _ _ _ _ _
  · split
    · exact wait_recordless _ _ _ _ _ _
    · exact file_recordless _ _ _ _ _ _

theorem millis_sameRecords : Keeps World.SameRecords Filing.millis := fun _ => rfl

theorem activeTypes_readOnly : ReadOnly activeTypes :=
  .database_bind (fun _ => (ReadOnly.of _).bind fun _ => ReadOnly.closed.pure _) fun _ _ => rfl

theorem activePatterns_readOnly : ReadOnly activePatterns :=
  .database_bind (fun _ => (ReadOnly.of _).bind fun _ => ReadOnly.closed.pure _) fun _ _ => rfl

theorem index_recordless (attempts : Int) (a : Arrival) : Recordless (index attempts a) := by
  rw [index_eq]
  apply Recordless.behind (Keeps.of _)
  intro data
  apply Recordless.behind millis_sameRecords
  intro millis
  apply Recordless.behind (scan_sameRecords _ _)
  intro barcodes
  apply Recordless.behind (activeTypes_readOnly.keeps World.SameRecords)
  intro types
  apply Recordless.behind (activePatterns_readOnly.keeps World.SameRecords)
  intro patterns
  exact (settle_recordless _ _ _ _ _ _ _).map _

theorem index_settles {attempts : Int} {a : Arrival} {r : Report} {w w' : World}
    (h : (index attempts a).exec w = (.ok r,w')) : ∃ data w₁, Payload.decoded a.pdf = .ok data ∧
      (scan attempts a.pdf).exec w = (.ok r.barcodes,w₁) ∧
      (settle a (arrivalName a) r.storagePath data r.barcodes
        (w₁.db.documentTypes.sorted.filter (·.isActive)) (tried w₁.db)).exec w₁ =
          (.ok r.outcome,w') := by
  rw [index_eq] at h
  obtain ⟨data,w₁,hdata,h⟩ := exec_bind_eq_ok h
  obtain ⟨millis,w₂,hmillis,h⟩ := exec_bind_eq_ok h
  obtain ⟨barcodes,w₃,hscan,h⟩ := exec_bind_eq_ok h
  obtain ⟨types,w₄,htypes,h⟩ := exec_bind_eq_ok h
  obtain ⟨patterns,w₅,hpatterns,h⟩ := exec_bind_eq_ok h
  obtain rfl : w = w₁ := congrArg Prod.snd hdata
  obtain rfl : w = w₂ := congrArg Prod.snd hmillis
  obtain ⟨rfl,rfl⟩ := activeTypes_ok htypes
  obtain ⟨rfl,rfl⟩ := activePatterns_ok hpatterns
  rw [exec_map] at h
  obtain ⟨hr,rfl⟩ := Prod.mk.inj h
  rcases hsettle : (settle a (arrivalName a) _ data barcodes _ _).exec w₅ with ⟨f | o,w'⟩ <;>
    rw [hsettle] at hr <;> cases hr
  exact ⟨data,w₅,congrArg Prod.fst hdata,hscan,hsettle⟩

end Indexing

end StepGraph
