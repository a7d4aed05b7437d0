import StepGraph.Proofs.Dates
import StepGraph.Proofs.Numbering
import StepGraph.Proofs.ScannedDocument

/-!
What was filed last is what is found. Documents come into a database one behind the other, put there
under a key or filed by their barcodes. Each new record has a larger number and no earlier date than
all before it, so the latest record under a key is that of the last filing under that key.
-/
namespace StepGraph

open Attempt Work

def World.date (w : World) : Time.Moment := (Time.Moment.ofEpoch? w.now).getD default

def World.Dated (w : World) : Prop := (Time.Moment.ofEpoch? w.now).isSome = true

/-- Filed documents are only added, numbered upwards and dated by a clock that stands still. -/
structure World.Appends (w w' : World) : Prop where
  clock : w'.now = w.now
  present : w'.db.documents.present = w.db.documents.present
  climbs : w.db.documents.Climbs w'.db.documents
  dated : ∀ d ∈ w'.db.documents.rows, d ∈ w.db.documents.rows ∨ d.createdAt = w.date

instance : IsPreorder World World.Appends where
  refl w := ⟨rfl,rfl,refl_of Table.Climbs _,fun _ hd => .inl hd⟩
  trans w w' w'' h h' := by
    have hdate : w'.date = w.date := by rw [World.date,h.clock,World.date]
    refine ⟨h'.clock.trans h.clock,h'.present.trans h.present,
      trans_of Table.Climbs h.climbs h'.climbs,fun d hd => ?_⟩
    rcases h'.dated d hd with hd | hd
    · exact h.dated d hd
    · exact .inr (hd.trans hdate)

theorem World.OffRecord.appends {w w' : World} (h : w.OffRecord w') : w.Appends w' := by
  obtain ⟨_,_,_,rfl⟩ := h
  exact ⟨rfl,rfl,refl_of Table.Climbs _,fun _ hd => .inl hd⟩

namespace Filing

theorem record_appends {make : Int → Time.Moment → FiledDocument}
    (hid : ∀ id now, (make id now).id = id) (hdate : ∀ id now, (make id now).createdAt = now) :
    Keeps World.Appends (record make) := by
  intro w
  rw [AppendOnly.exec_record]
  split
  · exact refl_of World.Appends w
  · refine ⟨rfl,rfl,Table.climbs_concat w.db.documents (hid _ _),fun d hd => ?_⟩
    rcases List.mem_append.1 hd with hd | hd
    · exact .inl hd
    · rw [List.mem_singleton.1 hd]
      exact .inr (hdate _ _)

def chosenPath (t : DocumentType) (s : Submission) : Work String :=
  match s.path.filter (!·.isEmpty) with
  | some p => pure p
  | none => defaultPath t s.detailLine

def submitted (b : Bucket) (t : DocumentType) (s : Submission) (path name : String) (id : Int)
    (now : Time.Moment) : FiledDocument :=
  { id := id, bucket := b.id, type := t.id, detailLine := s.detailLine,
    billNumber := some s.billNumber, storagePath := path, arrivalName := some name,
    size := some s.data.size, createdAt := now }

def acknowledged (b : Bucket) (t : DocumentType) (s : Submission) (path : String) (id : Int) :
    Entries Value :=
  [("documentId",.int id),("storagePath",.text path),("documentUrl",.text (documentUrl b path)),
    ("bucketName",.text b.name),("documentTypeName",.text t.name),
    ("detailLineId",.text s.detailLine),("billNumber",.text s.billNumber)]

theorem put_eq (bucketId typeId : Value) (s : Submission) : put bucketId typeId s =
    bucket bucketId >>= fun b => documentType typeId >>= fun t => chosenPath t s >>= fun path =>
      (discard <| Storage.write (bucketFolder b.id) path s.data) >>= fun _ =>
        Work.of (nameText s.filename) >>= fun name =>
          (fun d => acknowledged b t s path d.id) <$> record (submitted b t s path name) := by
  unfold put chosenPath
  refine bind_congr fun b => bind_congr fun t => ?_
  simp only [map_eq_pure_bind]
  generalize s.path.filter (!·.isEmpty) = path
  cases path <;> rfl

theorem chosenPath_readOnly (t : DocumentType) (s : Submission) : ReadOnly (chosenPath t s) := by
  unfold chosenPath
  split
  · exact ReadOnly.closed.pure _
  · refine ReadOnly.bind ?_ fun _ => ReadOnly.closed.pure _
    exact ReadOnly.get_bind (fun _ => ReadOnly.closed.pure _) fun _ _ => rfl

theorem stored_offRecord (b : Bucket) (path : String) (data : ByteArray) :
    Keeps World.OffRecord
      (discard <| Storage.write (bucketFolder b.id) path data : Work PUnit) :=
  Keeps.closed.map (Indexing.write_offRecord _ path data) _

theorem put_appends (bucketId typeId : Value) (s : Submission) :
    Keeps World.Appends (put bucketId typeId s) := by
  rw [put_eq]
  refine ((ReadOnly.bucket bucketId).keeps World.Appends).bind fun b => ?_
  refine ((ReadOnly.documentType typeId).keeps World.Appends).bind fun t => ?_
  refine ((chosenPath_readOnly t s).keeps World.Appends).bind fun path => ?_
  refine ((stored_offRecord b path s.data).mono fun _ _ h => h.appends).bind fun _ => ?_
  refine (Keeps.of _).bind fun name => ?_
  exact Keeps.closed.map (record_appends (fun _ _ => rfl) fun _ _ => rfl) _

theorem put_recordless (bucketId typeId : Value) (s : Submission) :
    Recordless (put bucketId typeId s) := by
  rw [put_eq]
  apply Recordless.behind ((ReadOnly.bucket bucketId).keeps World.SameRecords)
  intro b
  apply Recordless.behind ((ReadOnly.documentType typeId).keeps World.SameRecords)
  intro t
  apply Recordless.behind ((chosenPath_readOnly t s).keeps World.SameRecords)
  intro path
  apply Recordless.behind ((stored_offRecord b path s.data).mono fun _ _ h => h.sameRecords)
  intro _
  apply Recordless.behind (Keeps.of _)
  intro name
  exact (Indexing.record_recordless _).map _

/-- A filing: the key under which it was made, and what is found under it. -/
structure Entry where
  bucket : Int
  type : Int
  detailLine : String
  id : Int
  path : String
  billNumber : Option String
  deriving DecidableEq

namespace Entry

def isUnder (bucket type : Int) (detailLine : String) (e : Entry) : Bool :=
  e.bucket == bucket && e.type == type && e.detailLine == detailLine

def ofRecord (d : FiledDocument) : Entry :=
  ⟨d.bucket,d.type,d.detailLine,d.id,d.storagePath,d.billNumber⟩

def ofAnswer? (bucketId typeId : Value) (s : Submission) (answer : Entries Value) : Option Entry :=
  match bucketId.whole, typeId.whole, answer.get? "documentId", answer.get? "storagePath",
    answer.get? "billNumber" with
  | .ok bucket, .ok type, some (.int id), some (.text path), some (.text bill) =>
    some ⟨bucket,type,s.detailLine,id,path,some bill⟩
  | _, _, _, _, _ => none

/-- The filing that a report of a scanned document tells of, under the key that its barcodes give
among the types and patterns that there were. -/
def ofReport? (db : Database) (a : Indexing.Arrival) (r : Indexing.Report) : Option Entry :=
  match r.outcome with
  | .waiting _ => none
  | .filed id _ detailLine => do
    let types := db.documentTypes.sorted.filter (·.isActive)
    let m ← Indexing.firstMatch? (types.map (·.name)) (Indexing.tried db) r.barcodes
    let t ← Indexing.typeNamed? types m.documentType
    return ⟨Indexing.bucketOr m.bucket a.bucket,t.id,detailLine,id,r.storagePath,some ""⟩

end Entry

theorem lookUp_ok {ρ : Type} [Numbered ρ] (table : Database → Table ρ) {id : Value} {row : ρ}
    {k : Option ρ → Work ρ} (hsome : ∀ r, k (some r) = pure r)
    (hnone : ∀ w r w', (k none).exec w ≠ (.ok r,w')) {w w' : World}
    (h : (database >>= fun db => Work.of id.whole >>= fun i =>
      Work.of ((table db).find i) >>= k).exec w = (.ok row,w')) :
    ∃ i, id.whole = .ok i ∧ (table w.db).find i = .ok (some row) ∧ w' = w := by
  rw [exec_database] at h
  obtain ⟨i,w₁,hi,h⟩ := exec_bind_eq_ok h
  obtain ⟨found,w₂,hfound,h⟩ := exec_bind_eq_ok h
  obtain rfl : w = w₁ := congrArg Prod.snd hi
  obtain rfl : w = w₂ := congrArg Prod.snd hfound
  cases found with
  | some r =>
    rw [hsome] at h
    cases h
    exact ⟨i,congrArg Prod.fst hi,congrArg Prod.fst hfound,rfl⟩
  | none => exact absurd h (hnone _ _ _)

theorem absent_ne {ρ : Type} (text : Except Fault String) (f : String → Fault) (w : World) (r : ρ)
    (w' : World) : (Work.of text >>= fun s => (throw (f s) : Work ρ)).exec w ≠ (.ok r,w') := by
  intro h
  obtain ⟨s,w₁,-,h⟩ := exec_bind_eq_ok h
  cases h

theorem bucket_ok {id : Value} {b : Bucket} {w w' : World}
    (h : (bucket id).exec w = (.ok b,w')) :
    ∃ i, id.whole = .ok i ∧ w.db.buckets.find i = .ok (some b) ∧ w' = w :=
  lookUp_ok Database.buckets (fun _ => rfl) (absent_ne _ _) h

theorem documentType_ok {id : Value} {t : DocumentType} {w w' : World}
    (h : (documentType id).exec w = (.ok t,w')) :
    ∃ i, id.whole = .ok i ∧ w.db.documentTypes.find i = .ok (some t) ∧ w' = w :=
  lookUp_ok Database.documentTypes (fun _ => rfl) (absent_ne _ _) h

theorem bucket_exec {id : Value} {i : Int} {b : Bucket} {w : World} (hi : id.whole = .ok i)
    (hb : w.db.buckets.find i = .ok (some b)) : (bucket id).exec w = (.ok b,w) := by
  unfold bucket
  rw [exec_database,hi,exec_bind_of,hb]
  rfl

theorem id_of_find {ρ : Type} [Numbered ρ] {t : Table ρ} {i : Int} {row : ρ}
    (h : t.find i = .ok (some row)) : Numbered.id row = i := by
  simpa using List.find?_some (Table.get?_of_find h)

theorem put_ok {bucketId typeId : Value} {s : Submission} {answer : Entries Value} {w w' : World}
    (h : (put bucketId typeId s).exec w = (.ok answer,w')) : ∃ d, w'.db = w.db.withFiled d ∧
      Entry.ofAnswer? bucketId typeId s answer = some (Entry.ofRecord d) := by
  rw [put_eq] at h
  obtain ⟨b,w₁,hb,h⟩ := exec_bind_eq_ok h
  obtain ⟨t,w₂,ht,h⟩ := exec_bind_eq_ok h
  obtain ⟨path,w₃,hpath,h⟩ := exec_bind_eq_ok h
  obtain ⟨_,w₄,hwrite,h⟩ := exec_bind_eq_ok h
  obtain ⟨name,w₅,hname,h⟩ := exec_bind_eq_ok h
  obtain ⟨i,hi,hbucket,rfl⟩ := bucket_ok hb
  obtain ⟨j,hj,htype,rfl⟩ := documentType_ok ht
  have hsame := (chosenPath_readOnly t s).same w₂
  have hoff := stored_offRecord b path s.data w₃
  rw [hpath] at hsame
  rw [hwrite] at hoff
  obtain rfl : w₂ = w₃ := hsame
  obtain rfl : w₄ = w₅ := congrArg Prod.snd hname
  rw [exec_map] at h
  rcases hd : (record (submitted b t s path name)).exec w₄ with ⟨f | d,w₆⟩ <;> rw [hd] at h <;>
    cases h
  obtain ⟨now,rfl,rfl⟩ := Indexing.record_ok hd
  have hrow : w₄.db.withFiled (submitted b t s path name w₄.db.documents.nextId now) =
      w₂.db.withFiled (submitted b t s path name w₄.db.documents.nextId now) :=
    congrArg (Database.withFiled · _) hoff.sameRecords
  refine ⟨_,hrow,?_⟩
  have hbid : b.id = i := id_of_find hbucket
  have htid : t.id = j := id_of_find htype
  simp [Entry.ofAnswer?,Entry.ofRecord,acknowledged,submitted,hi,hj,hbid,htid,Entries.get?]

end Filing

namespace Indexing

theorem enqueue_appends (make : Int → WaitingDocument) : Keeps World.Appends (enqueue make) := by
  intro w
  rw [enqueue_exec]
  simp only
  split
  · exact refl_of World.Appends w
  · exact refl_of World.Appends w
  · exact ⟨rfl,rfl,refl_of Table.Climbs w.db.documents,fun _ hd => .inl hd⟩

theorem store_appends (bucket : Int) (path : String) (data : ByteArray) :
    Keeps World.Appends (store bucket path data) :=
  (store_offRecord bucket path data).mono fun _ _ h => h.appends

theorem wait_appends (a : Arrival) (name path : String) (data : ByteArray)
    (barcodes : List String) (reason : String) :
    Keeps World.Appends (wait a name path data barcodes reason) :=
  (store_appends _ _ _).bind fun _ => (enqueue_appends _).bind fun _ => Keeps.closed.pure _

theorem file_appends (bucket : Int) (t : DocumentType) (m : Barcode.Match) (name path : String)
    (data : ByteArray) : Keeps World.Appends (file bucket t m name path data) :=
  (store_appends _ _ _).bind fun _ => (Keeps.of _).bind fun _ =>
    (Filing.record_appends (fun _ _ => rfl) fun _ _ => rfl).bind fun _ => Keeps.closed.pure _

theorem index_appends (attempts : Int) (a : Arrival) : Keeps World.Appends (index attempts a) := by
  rw [index_eq]
  refine (Keeps.of _).bind fun data => ?_
  refine Keeps.bind (fun w => refl_of World.Appends w) fun millis => ?_
  refine ((scan_offRecord attempts a.pdf).mono fun _ _ h => h.appends).bind fun barcodes => ?_
  refine (activeTypes_readOnly.keeps World.Appends).bind fun types => ?_
  refine (activePatterns_readOnly.keeps World.Appends).bind fun patterns => ?_
  refine Keeps.closed.map ?_ _
  unfold settle
  split
  · exact wait_appends _ _ _ _ _ _
  · split
    · exact wait_appends _ _ _ _ _ _
    · exact file_appends _ _ _ _ _ _

theorem index_ok {attempts : Int} {a : Arrival} {r : Report} {w w' : World}
    (h : (index attempts a).exec w = (.ok r,w')) :
    (∃ d, w'.db = w.db.withFiled d ∧ Filing.Entry.ofReport? w.db a r = some (.ofRecord d)) ∨
      w'.db.documents = w.db.documents ∧ Filing.Entry.ofReport? w.db a r = none := by
  obtain ⟨data,w₁,-,hscan,hsettle⟩ := index_settles h
  have hdb : w₁.db = w.db := by
    have := scan_sameRecords attempts a.pdf w
    rwa [hscan] at this
  rw [hdb] at hsettle
  unfold settle at hsettle
  split at hsettle
  · obtain ⟨ho,q,hq,-⟩ := wait_ok hsettle
    refine .inr ⟨?_,?_⟩
    · rw [hq.added,hdb]
      rfl
    · rw [Filing.Entry.ofReport?,ho]
  · rename_i m hm
    split at hsettle
    · obtain ⟨ho,q,hq,-⟩ := wait_ok hsettle
      refine .inr ⟨?_,?_⟩
      · rw [hq.added,hdb]
        rfl
      · rw [Filing.Entry.ofReport?,ho]
    · rename_i t ht
      obtain ⟨d,hd,hbucket,htype,hdetail,hbill,ho⟩ := file_ok hsettle
      refine .inl ⟨d,by rw [hd.added,hdb],?_⟩
      rw [Filing.Entry.ofReport?,ho]
      simp [hm,ht,Filing.Entry.ofRecord,hbucket,htype,hdetail,hbill,hd.path]

end Indexing

namespace Filing

/-- A document is put under a key, or a scanned one is filed by its barcodes. -/
inductive Event where
  | submission (bucketId typeId : Value) (s : Submission)
  | arrival (attempts : Int) (a : Indexing.Arrival)

/-- What an event does to the world, with the filing that it reports. -/
def Event.run (w : World) : Event → Option Entry × World
  | .submission bucketId typeId s =>
    let done := (put bucketId typeId s).exec w
    (done.1.toOption.bind (Entry.ofAnswer? bucketId typeId s),done.2)
  | .arrival attempts a =>
    let done := (Indexing.index attempts a).exec w
    (done.1.toOption.bind (Entry.ofReport? w.db a),done.2)

/-- The filings into a database that had no documents at first. Between two events anything may
change beside the documents, and the clock is not turned back. -/
inductive History : List Entry → World → Prop
  | start (w : World) (empty : w.db.documents = {}) (dated : w.Dated) : History [] w
  | event {log : List Entry} {w : World} (before : History log w) (e : Event) :
      History (log ++ (e.run w).1.toList) (e.run w).2
  | meanwhile {log : List Entry} {w : World} (before : History log w) (w' : World)
      (documents : w'.db.documents = w.db.documents) (clock : w.now ≤ w'.now) (dated : w'.Dated) :
      History log w'

theorem Event.run_appends (w : World) : ∀ e : Event, w.Appends (e.run w).2
  | .submission bucketId typeId s => put_appends bucketId typeId s w
  | .arrival attempts a => Indexing.index_appends attempts a w

/-- An event adds the record of the filing that it reports, and no other one. -/
theorem Event.run_records (w : World) (e : Event) :
    (e.run w).2.db.documents.rows.map Entry.ofRecord =
      w.db.documents.rows.map Entry.ofRecord ++ (e.run w).1.toList := by
  have added {db : Database} {d : FiledDocument} (h : db = w.db.withFiled d) :
      db.documents.rows.map Entry.ofRecord =
        w.db.documents.rows.map Entry.ofRecord ++ [.ofRecord d] := by
    rw [h,Database.withFiled,List.map_append,List.map_singleton]
  have unchanged {db : Database} (h : db.documents = w.db.documents) :
      db.documents.rows.map Entry.ofRecord = w.db.documents.rows.map Entry.ofRecord ++ [] := by
    rw [h,List.append_nil]
  cases e with
  | submission bucketId typeId s =>
    rw [Event.run]
    rcases hp : (put bucketId typeId s).exec w with ⟨f | answer,w'⟩
    · exact unchanged (congrArg Database.documents (put_recordless _ _ _ w f w' hp))
    · obtain ⟨d,hd,he⟩ := put_ok hp
      simp only [Except.toOption,Option.bind_some,he]
      exact added hd
  | arrival attempts a =>
    rw [Event.run]
    rcases hp : (Indexing.index attempts a).exec w with ⟨f | r,w'⟩
    · exact unchanged (congrArg Database.documents (Indexing.index_recordless _ _ w f w' hp))
    · simp only [Except.toOption,Option.bind_some]
      rcases Indexing.index_ok hp with ⟨d,hd,he⟩ | ⟨hd,he⟩ <;> rw [he]
      · exact added hd
      · exact unchanged hd

def Precedes (a b : FiledDocument) : Prop :=
  a.id < b.id ∧ a.createdAt.ticks ≤ b.createdAt.ticks

/-- The records are those of the filings, in their order, and none is dated in the future. -/
structure Kept (log : List Entry) (w : World) : Prop where
  present : w.db.documents.present = true
  records : w.db.documents.rows.map Entry.ofRecord = log
  order : w.db.documents.rows.Pairwise Precedes
  past : ∀ d ∈ w.db.documents.rows, d.createdAt.ticks ≤ w.date.ticks
  dated : w.Dated

theorem Kept.event {log : List Entry} {w : World} (h : Kept log w) (e : Event) :
    Kept (log ++ (e.run w).1.toList) (e.run w).2 := by
  have ha := e.run_appends w
  have hrecords := e.run_records w
  generalize e.run w = done at ha hrecords
  obtain ⟨added,hrows,hadded,hnew⟩ := ha.climbs
  have hdate : done.2.date = w.date := by rw [World.date,ha.clock,World.date]
  have hfresh (d : FiledDocument) (hd : d ∈ added) : d.createdAt = w.date := by
    rcases ha.dated d (hrows ▸ List.mem_append_right _ hd) with hold | hdate
    · exact absurd (hnew d hold d hd) (Int.lt_irrefl _)
    · exact hdate
  refine ⟨ha.present.trans h.present,?_,?_,?_,?_⟩
  · rw [hrecords,h.records]
  · rw [hrows]
    refine List.pairwise_append.2 ⟨h.order,?_,fun a hmem b hb => ⟨hnew a hmem b hb,?_⟩⟩
    · refine hadded.imp_of_mem fun hmem hb hlt => ⟨hlt,?_⟩
      exact Int.le_of_eq (by rw [hfresh _ hmem,hfresh _ hb])
    · rw [hfresh b hb]
      exact h.past a hmem
  · intro d hd
    rw [hdate]
    rcases ha.dated d hd with hold | hnow
    · exact h.past d hold
    · exact Int.le_of_eq (by rw [hnow])
  · unfold World.Dated
    rw [ha.clock]
    exact h.dated

theorem date_mono {w w' : World} (hd : w.Dated) (hd' : w'.Dated) (h : w.now ≤ w'.now) :
    w.date.ticks ≤ w'.date.ticks := by
  obtain ⟨t,ht⟩ := Option.isSome_iff_exists.1 hd
  obtain ⟨u,hu⟩ := Option.isSome_iff_exists.1 hd'
  rw [World.date,World.date,ht,hu]
  exact Time.Moment.ticks_le_of_ofEpoch? ht hu h

theorem History.kept {log : List Entry} {w : World} (h : History log w) : Kept log w := by
  induction h with
  | start w empty dated =>
    refine ⟨by rw [empty],by rw [empty]; rfl,?_,?_,dated⟩
    · rw [empty]
      exact List.Pairwise.nil
    · rw [empty]
      exact List.forall_mem_nil _
  | event before e ih => exact ih.event e
  | meanwhile before w' documents clock dated ih =>
    have hdate := date_mono ih.dated dated clock
    refine ⟨documents ▸ ih.present,documents ▸ ih.records,documents ▸ ih.order,?_,dated⟩
    intro d hd
    rw [documents] at hd
    exact Int.le_trans (ih.past d hd) hdate

/-- Where documents stand in the order of their filing, the latest one is the last one. -/
theorem latest_eq_getLast? {ds : List FiledDocument} (h : ds.Pairwise Precedes) :
    latest ds = ds.getLast? := by
  induction ds with
  | nil => rfl
  | cons d rest ih =>
    obtain ⟨hd,hrest⟩ := List.pairwise_cons.1 h
    rw [latest,ih hrest]
    cases hlast : rest.getLast? with
    | none =>
      rw [List.getLast?_eq_none_iff.1 hlast]
      rfl
    | some e =>
      have he := hd e (List.mem_of_getLast? hlast)
      have hbefore : before d e = true := by
        unfold before
        have := he.1
        have := he.2
        grind
      simp only [hbefore,if_true]
      rw [List.getLast?_cons,hlast]
      rfl

def answered (b : Bucket) (d : FiledDocument) : Entries Value :=
  [("documentId",.int d.id),("storagePath",.text d.storagePath),
    ("documentUrl",.text (documentUrl b d.storagePath)),("bucketName",.text b.name),
    ("detailLineId",.text d.detailLine),("billNumber",.ofText? d.billNumber),
    ("originalFilename",.ofText? d.arrivalName)]

theorem get_exec {bucketId typeId : Value} {i type : Int} {b : Bucket} {w : World}
    (hi : bucketId.whole = .ok i) (hb : w.db.buckets.find i = .ok (some b))
    (ht : typeId.whole = .ok type) (hfits : fitsRecord type = true)
    (hpresent : w.db.documents.present = true) (detailLine : String) :
    (get bucketId typeId detailLine).exec w =
      match latest (w.db.documents.rows.filter (isUnder b.id type detailLine)) with
      | some d => (.ok (answered b d),w)
      | none => (.error (.external "Document not found"),w) := by
  have htype : (do held (← typeId.whole)) = .ok type := by
    rw [ht]
    exact if_pos hfits
  have hrows : w.db.documents.all = .ok w.db.documents.rows := if_pos hpresent
  unfold get
  rw [exec_bind_ok (bucket_exec hi hb),exec_database,htype,hrows]
  change Attempt.exec (match latest (w.db.documents.rows.filter (isUnder b.id type detailLine)) with
    | some d => pure _
    | none => throw _) w = _
  cases latest (w.db.documents.rows.filter (isUnder b.id type detailLine)) <;> rfl

def lastUnder (log : List Entry) (bucket type : Int) (detailLine : String) : Option Entry :=
  (log.filter (Entry.isUnder bucket type detailLine)).getLast?

theorem Kept.latest {log : List Entry} {w : World} (h : Kept log w) (bucket type : Int)
    (detailLine : String) :
    (Filing.latest (w.db.documents.rows.filter (isUnder bucket type detailLine))).map
      Entry.ofRecord = lastUnder log bucket type detailLine := by
  rw [latest_eq_getLast? (h.order.filter _),← List.getLast?_map,lastUnder,← h.records,
    List.filter_map]
  rfl

/-- In a database that began without documents, asking for the documents of an existing bucket under
a type and a detail line finds the last filing that was made under just that key, by a submission or
by barcodes, whatever was filed under other keys. Nothing is found if and only if no filing was made
under it. A submission that is refused adds no record. -/
theorem get_last {log : List Entry} {w : World} (h : History log w) {bucketId typeId : Value}
    {bucket type : Int} {b : Bucket} (hi : bucketId.whole = .ok bucket)
    (hb : w.db.buckets.find bucket = .ok (some b)) (ht : typeId.whole = .ok type)
    (hfits : fitsRecord type = true) (detailLine : String) :
    (∀ e, lastUnder log bucket type detailLine = some e →
      ∃ answer, (get bucketId typeId detailLine).exec w = (.ok answer,w) ∧
        answer.get? "documentId" = some (.int e.id) ∧
        answer.get? "storagePath" = some (.text e.path) ∧
        answer.get? "billNumber" = some (.ofText? e.billNumber)) ∧
    ((get bucketId typeId detailLine).exec w = (.error (.external "Document not found"),w) ↔
      ∀ e ∈ log, e.isUnder bucket type detailLine = false) ∧
    ∀ bucketId typeId s f w', (put bucketId typeId s).exec w = (.error f,w') →
      w'.db.documents = w.db.documents := by
  have hget := get_exec hi hb ht hfits h.kept.present detailLine
  have hlatest := h.kept.latest b.id type detailLine
  have hbucket : b.id = bucket := id_of_find hb
  rw [hbucket] at hget hlatest
  refine ⟨fun e he => ?_,?_,fun bucketId typeId s f w' hput => ?_⟩
  · rw [he] at hlatest
    obtain ⟨d,hd,rfl⟩ := Option.map_eq_some_iff.1 hlatest
    rw [hd] at hget
    exact ⟨answered b d,hget,rfl,rfl,rfl⟩
  · have hnone : lastUnder log bucket type detailLine = none ↔
        ∀ e ∈ log, e.isUnder bucket type detailLine = false := by
      rw [lastUnder,List.getLast?_eq_none_iff,List.filter_eq_nil_iff]
      simp only [Bool.not_eq_true]
    rw [← hnone,← hlatest,Option.map_eq_none_iff,hget]
    cases latest (w.db.documents.rows.filter (isUnder bucket type detailLine)) with
    | none => simp
    | some d => simp
  · exact congrArg Database.documents (put_recordless bucketId typeId s w f w' hput)

def archive : World where
  db :=
    { buckets := { rows := [⟨1,"scans",""⟩] }
      documentTypes := { rows := [⟨2,"BOL",true⟩] }
      patterns :=
        { rows := [⟨1,{ id := some 1, template := some (Barcode.typePlace ++ "-" ++
            Barcode.detailPlace) },0,true⟩] } }
  ai := some ⟨"m",{ replies := [.completion "[\"BOL-L1\"]"] }⟩

def morning : List Event :=
  [.submission (.int 1) (.int 2) ⟨"L1","B1",.empty,.null,some "a.pdf"⟩,
    .submission (.int 1) (.int 2) ⟨"L2","B2",.empty,.null,some "b.pdf"⟩,
    .arrival 1 { pdf := "AA==", bucket := 1 }]

def runAll (events : List Event) (start : List Entry × World) : List Entry × World :=
  events.foldl (fun s e => (s.1 ++ (e.run s.2).1.toList,(e.run s.2).2)) start

theorem History.runAll (start : List Entry × World) (h : History start.1 start.2)
    (events : List Event) : History (runAll events start).1 (runAll events start).2 := by
  induction events generalizing start with
  | nil => exact h
  | cons e rest ih => exact ih _ (.event h e)

theorem get_last_morning :
    let done := runAll morning ([],archive)
    let later := { archive with db := { archive.db with documents := done.2.db.documents } }
    ∃ answer, (get (.int 1) (.int 2) "L1").exec later = (.ok answer,later) ∧
      answer.get? "documentId" = some (.int 3) ∧
      answer.get? "storagePath" = some (.text "imaging/0-document.pdf") ∧
      answer.get? "billNumber" = some (.text "") := by
  have hdated : (Time.Moment.ofEpoch? archive.now).isSome = true := by decide +kernel
  have hstart : History [] archive := .start archive rfl hdated
  have hdone := History.runAll ([],archive) hstart morning
  have hclock : (runAll morning ([],archive)).2.now ≤ archive.now := by decide +kernel
  have hlast : lastUnder (runAll morning ([],archive)).1 1 2 "L1" =
      some ⟨1,2,"L1",3,"imaging/0-document.pdf",some ""⟩ := by decide +kernel
  generalize runAll morning ([],archive) = done at hdone hclock hlast
  have hlater : History done.1
      { archive with db := { archive.db with documents := done.2.db.documents } } :=
    .meanwhile hdone _ rfl hclock hdated
  have hbucket : archive.db.buckets.find 1 = .ok (some ⟨1,"scans",""⟩) := rfl
  have hid (i : Int) : (Value.int i).whole = .ok i := rfl
  exact (get_last hlater (hid 1) hbucket (hid 2) rfl "L1").1 _ hlast

end Filing

end StepGraph
