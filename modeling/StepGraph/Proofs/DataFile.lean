import StepGraph.Proofs.Submission
import Mathlib.Data.List.Sort

/-!
The data file of a whole run. A run keeps its format, and its extracted data while no step writes
them; so a step that sends the data file sends the text that was submitted, as it was understood
when the run was prepared.
-/
namespace StepGraph

open Attempt Work

theorem Graph.createdFirst_sort (rows : List StoredNode) :
    rows.mergeSort createdFirst = rows.insertionSort fun a b => createdFirst a b = true := by
  have hle (a b : StoredNode) : createdFirst a b = true ↔ a.createdAt.ticks ≤ b.createdAt.ticks := by
    simp [createdFirst]
  have htrans (a b c : StoredNode) (hab : createdFirst a b = true) (hbc : createdFirst b c = true) :
      createdFirst a c = true := by
    rw [hle] at *
    omega
  have htotal (a b : StoredNode) : (createdFirst a b || createdFirst b a) = true := by
    rw [Bool.or_eq_true,hle,hle]
    omega
  induction rows with
  | nil => simp
  | cons a rest ih =>
    obtain ⟨later,earlier,hsort,hrest,hlater⟩ := List.mergeSort_cons htrans htotal a rest
    have hpair := List.pairwise_mergeSort htrans htotal (a :: rest)
    rw [hsort] at hpair
    rw [hsort,List.insertionSort_cons,← ih,hrest]
    have hbehind : earlier.orderedInsert (fun a b => createdFirst a b = true) a = a :: earlier := by
      cases earlier with
      | nil => rfl
      | cons b l =>
        have hab := (List.pairwise_cons.1 (List.pairwise_append.1 hpair).2.1).1 b (by simp)
        exact List.orderedInsert_cons_of_le _ l hab
    clear hsort hrest hpair
    induction later with
    | nil => exact hbehind.symm
    | cons b l ih =>
      obtain ⟨hb,hl⟩ := List.forall_mem_cons.1 hlater
      rw [List.cons_append,List.cons_append,List.orderedInsert_of_not_le,ih hl]
      simpa using hb
namespace Launch

theorem found_of_bestEffort {α : Type} {p : Work (Option α)} {w w' : World} {found : Option (Option α)}
    (h : (bestEffort p).exec w = (.ok found,w')) {x : α} (hx : found.join = some x) :
    (p.exec w).1 = .ok (some x) := by
  rw [exec_bestEffort] at h
  rcases hp : p.exec w with ⟨f | y,w₁⟩ <;> rw [hp] at h <;> simp only at h
  · split at h <;> cases h
    cases hx
  · cases h
    exact congrArg Except.ok hx

theorem opening_found {mode : Mode} {workflow : Int} {r : Request} {w w' : World}
    {kind : Option DocumentKind} {rec : Recorder}
    (h : (opening mode workflow r).exec w = (.ok (kind,rec),w')) :
    w'.files = w.files ∧ ∀ k, kind = some k → ((findKind r).exec w).1 = .ok (some k) := by
  have htrail : w.Alike ((opening mode workflow r).exec w).2 := opening_trail mode workflow r w
  rw [h] at htrail
  obtain ⟨l,rfl⟩ := htrail
  unfold opening at h
  obtain ⟨found,w₁,hfound,h⟩ := exec_bind_eq_ok h
  obtain ⟨document,w₂,-,h⟩ := exec_bind_eq_ok h
  obtain ⟨rec',w₃,-,h⟩ := exec_bind_eq_ok h
  obtain ⟨h,-⟩ := Prod.mk.inj h
  cases h
  exact ⟨rfl,fun k hk => found_of_bestEffort hfound hk⟩

end Launch

namespace Visit

def SameFormat (t t' : Trip) : Prop := t'.run.format = t.run.format

instance : IsPreorder Trip SameFormat where
  refl _ := rfl
  trans _ _ _ h h' := h'.trans h

theorem work_sameFormat {α : Type} (p : Work α) : Keeps SameFormat (work p) := fun _ => rfl

theorem looks_sameFormat : Looks (Keeps SameFormat) where
  toClosed := Keeps.closed
  throw := .throw
  current _ := rfl
  callFree _ := work_sameFormat _
  forLog _ := work_sameFormat _

theorem around_sameFormat : Around (Keeps SameFormat) :=
  looks_sameFormat.around (fun _ _ _ => work_sameFormat _) fun _ _ _ => work_sameFormat _

theorem perform_sameFormat (n : Step Item) : Keeps SameFormat (perform n) := by
  intro t
  unfold SameFormat
  cases hk : n.kind? with
  | none =>
    unfold perform
    rw [hk]
    rfl
  | some k =>
    rw [perform_known hk]
    rcases (k.perform t.run n).exec t.world with ⟨f | o,w⟩
    · rfl
    · simp only
      split <;> rfl

theorem step_sameFormat (n : Step Item) : Keeps SameFormat (step n) :=
  around_sameFormat.step n (perform_sameFormat n).caught

theorem trail_data {g : Graph Item} {t t' : Trip} {target next : Option String}
    {stops : List (Stop Trip Item)} (h : g.Trail step t target stops t' next)
    (hkeeps : ∀ st ∈ stops, data st.after = data st.before) : data t' = data t := by
  induction h with
  | nil => rfl
  | cons _ _ ih =>
    obtain ⟨hst,hrest⟩ := List.forall_mem_cons.1 hkeeps
    exact (ih hrest).trans hst

end Visit

namespace Launch

theorem departure_understood {mode : Mode} {workflow : Int} {r : Request} {t : String}
    {isStored : Bool} {w w' : World} {g : Graph Item} {run : Run}
    (hs : Submits r w.files t isStored) (ht : Text.isBlankText t = false)
    (hd : (departure mode workflow r).exec w = (.ok (g,run),w'))
    (hu : LeavesSubmitted mode r w run.format t) :
    ∃ v, Payload.understood isStored run.format t = .ok v ∧ Visit.data ⟨w',run⟩ = .ok v := by
  unfold departure at hd
  obtain ⟨⟨kind,rec⟩,w₁,hop,hd⟩ := exec_bind_eq_ok hd
  obtain ⟨start,w₂,hprep,hd⟩ := exec_bind_eq_ok hd
  cases hd
  obtain ⟨hfiles,hkind⟩ := opening_found hop
  exact prepare_understood (hfiles ▸ hs) ht hu hkind hprep

/-- A run comes to a step that sends the data file, and no step before writes the extracted data. -/
structure ComesToSend (g : Graph Item) (t₀ : Trip) (before : List (Stop Trip Item)) (n : Step Item)
    (t : Trip) : Prop where
  trail : ∃ id, g.Trail Visit.step t₀ g.outset? before t (some id) ∧
    Entries.get? g.nodes id = some (.step n)
  keeps : ∀ st ∈ before, Visit.data st.after = Visit.data st.before
  sends : ∃ k config, n.kind? = some k ∧ t.world.store.read n.config = .ok config ∧
    k.SendsData t.run.dataKind config

theorem comesToSend_delivers {mode : Mode} {workflow : Int} {r : Request} {text : String}
    {isStored : Bool} {w w' : World} {g : Graph Item} {run : Run}
    (hs : Submits r w.files text isStored) (ht : Text.isBlankText text = false)
    (hd : (departure mode workflow r).exec w = (.ok (g,run),w'))
    (hu : LeavesSubmitted mode r w run.format text) {before : List (Stop Trip Item)} {n : Step Item}
    {t : Trip} (hb : ComesToSend g ⟨w',run⟩ before n t) :
    ∃ v, Payload.understood isStored run.format text = .ok v ∧
      Visit.Delivery (Payload.serialize v run.dataKind) n t ((Visit.step n).exec t).1
        ((Visit.step n).exec t).2 := by
  obtain ⟨v,hv,hdata⟩ := departure_understood hs ht hd hu
  obtain ⟨⟨id,htrail,-⟩,hkeeps,k,config,hk,hc,hsends⟩ := hb
  have hformat : t.run.format = run.format := htrail.keeps Visit.step_sameFormat
  have hkind : t.run.dataKind = run.dataKind := congrArg FileKind.ofFormat hformat
  refine ⟨v,hv,?_⟩
  rw [← hkind]
  exact Visit.step_delivers hk hsends hc ((Visit.trail_data htrail hkeeps).trans hdata)

/-- The text that a request of the format CSV brings with it is sent as it is, byte by byte. All
other submitted text is sent as the document that it spells, and as the empty document if it spells
none. -/
theorem data_sent {mode : Mode} {workflow : Int} {r : Request} {text : String} {isStored : Bool}
    {w w' : World} {g : Graph Item} {run : Run} (hs : Submits r w.files text isStored)
    (ht : Text.isBlankText text = false)
    (hd : (departure mode workflow r).exec w = (.ok (g,run),w'))
    (hu : LeavesSubmitted mode r w run.format text) {before : List (Stop Trip Item)} {n : Step Item}
    {t : Trip} (hb : ComesToSend g ⟨w',run⟩ before n t) :
    (isStored = false → run.format = Payload.csvFormat →
      Visit.Delivery (.ok text.toUTF8) n t ((Visit.step n).exec t).1 ((Visit.step n).exec t).2) ∧
    (isStored = true ∨ run.format ≠ Payload.csvFormat →
      ∃ v, Payload.documentOr (.object []) text = .ok v ∧
        Visit.Delivery (Payload.serialize v run.dataKind) n t ((Visit.step n).exec t).1
          ((Visit.step n).exec t).2) := by
  obtain ⟨v,hv,hdelivers⟩ := comesToSend_delivers hs ht hd hu hb
  constructor
  · rintro rfl hcsv
    rw [hcsv,Payload.understood_csv] at hv
    cases hv
    exact hdelivers
  · intro hdocument
    rw [Payload.understood_document hdocument] at hv
    exact ⟨v,hv,hdelivers⟩

def uploading : World where
  db :=
    { nodes :=
        { rows := [{ id := "s", workflow := 1, nodeType := "start", createdAt := default },
            { id := "u", workflow := 1, stepType := some "sftp_upload", config := .object [],
              createdAt := default }] }
      edges := { rows := [{ row := 1, id := "e", workflow := 1, source := "s", target := "u" }] }
      sftp :=
        { rows := [{ id := 1, host := "files", username := "u", isDefault := true,
                     directory := fun _ => none }] } }

def submitting (format text : String) : Request :=
  { workflow := some 1, format := some format, extracted := .text text }

def departed : Except Fault (Graph Item × Run) × World :=
  (departure .transformation 1 (submitting "CSV" "a,b\n1,2")).exec uploading

theorem departed_uploads :
    departed.1.toOption.map (·.2.format) = some "CSV" ∧
    departed.1.toOption.bind (·.1.outset?) = some "u" ∧
    (departed.1.toOption.bind fun d =>
      match Entries.get? d.1.nodes "u" with
      | some (.step n) => (departed.2.store.read n.config).toOption.map fun config =>
          (n.kind?,(Steps.uploadKind config d.2.dataKind).toOption)
      | _ => none) = some (some .sftpUpload,some .csv) := by
  unfold departed departure prepare Graph.stored
  simp only [Graph.createdFirst_sort]
  decide +kernel

/-- The table is sent as it was submitted. -/
theorem data_sent_table :
    ∃ g start w' n t, departed = (.ok (g,start),w') ∧ ComesToSend g ⟨w',start⟩ [] n t ∧
      Visit.Delivery (.ok "a,b\n1,2".toUTF8) n t ((Visit.step n).exec t).1
        ((Visit.step n).exec t).2 ∧
      ((run .transformation (submitting "CSV" "a,b\n1,2")).exec uploading).2.sent =
        ["a,b\n1,2".toUTF8] := by
  obtain ⟨hformat,hroute,hnode⟩ := departed_uploads
  rcases hd : departed with ⟨f | ⟨g,start⟩,w'⟩ <;> rw [hd] at hformat hroute hnode
  · cases hformat
  simp only [Except.toOption,Option.bind_some,Option.map_some,Option.some.injEq] at hformat hroute hnode
  rcases hn : Entries.get? g.nodes "u" with _ | m | n <;> rw [hn] at hnode
  · cases hnode
  · cases hnode
  simp only at hnode
  rcases hc : w'.store.read n.config with f | config <;> rw [hc] at hnode
  · cases hnode
  simp only [Option.map_some,Option.some.injEq,Prod.mk.injEq] at hnode
  obtain ⟨hkind,hfile⟩ := hnode
  have hb : ComesToSend g ⟨w',start⟩ [] n ⟨w',start⟩ :=
    { trail := ⟨"u",hroute ▸ .nil _ _,hn⟩
      keeps := by simp
      sends := ⟨.sftpUpload,config,hkind,hc,.upload fun hp => by simp [hp] at hfile⟩ }
  have hu : LeavesSubmitted .transformation (submitting "CSV" "a,b\n1,2") uploading start.format
      "a,b\n1,2" :=
    { request := ⟨by simp [submitting,Seed.Leaves,Entries.keys],fun h => by cases h⟩
      document := fun h => absurd hformat h
      fields := fun h => absurd hformat h }
  have hs : Submits (submitting "CSV" "a,b\n1,2") uploading.files "a,b\n1,2" false :=
    .inline rfl rfl
  have hblank : Text.isBlankText "a,b\n1,2" = false := by decide +kernel
  have hsent : ((run .transformation (submitting "CSV" "a,b\n1,2")).exec uploading).2.sent =
      ["a,b\n1,2".toUTF8] := by
    unfold run prepare Graph.stored
    simp only [Graph.createdFirst_sort]
    decide +kernel
  exact ⟨g,start,w',n,⟨w',start⟩,rfl,hb,(data_sent hs hblank hd hu hb).1 rfl hformat,hsent⟩

def naming (path : String) : Request :=
  { workflow := some 1, format := some "CSV", extractedPath := some path }

def overlaying (text other : String) : Request :=
  { workflow := some 1, format := some "CSV", extracted := .text text,
    context := some [(Context.extractedKey,.text other)] }

/-- A text that is no document is sent as an empty one, whether it is submitted as XML or stored as
CSV; and CSV that the request's own context lays another text over is not sent at all. -/
theorem data_not_sent :
    Text.isBlankText "<a/>" = false ∧ Text.isBlankText "a,b" = false ∧
    "<a/>".toUTF8 ≠ "\x7b\x7d".toUTF8 ∧ "a,b".toUTF8 ≠ "\x7b\x7d".toUTF8 ∧
    "a,b".toUTF8 ≠ "c".toUTF8 ∧
    ((run .transformation (submitting "XML" "<a/>")).exec uploading).2.sent =
      ["\x7b\x7d".toUTF8] ∧
    ((run .transformation (naming "t.csv")).exec { uploading with
        files := { files := [([payloadBucket,"t.csv"],"a,b".toUTF8)] } }).2.sent =
      ["\x7b\x7d".toUTF8] ∧
    ((run .transformation (overlaying "a,b" "c")).exec uploading).2.sent = ["c".toUTF8] := by
  unfold run prepare Graph.stored
  simp only [Graph.createdFirst_sort]
  decide +kernel

end Launch

end StepGraph
