import StepGraph.Proofs.Overlay
import StepGraph.Proofs.PlantedGraph
import StepGraph.Proofs.RunTogether
import StepGraph.Proofs.StoredFile
import StepGraph.Proofs.VisitSending

/-!
From submitted text to the data file of a run. Text of the format CSV that comes with the request
stays text, and the file has just its bytes. All other text is read as a document, and text that
is none gives way to an empty one: the file is written anew from what was read.
-/
namespace StepGraph

open Attempt Work

theorem fromUTF8?_toUTF8 (t : String) : String.fromUTF8? t.toUTF8 = some t := by
  unfold String.fromUTF8?
  split
  · rfl
  · rename_i h
    exact absurd t.isValidUTF8 h

namespace Payload

/-- What submitted text is understood as: it stays text when it comes with a request of the format
CSV, else it is read as a document. -/
def understood (isStored : Bool) (format t : String) : Except Fault Value :=
  if !isStored && format == csvFormat then .ok (.text t) else documentOr (.object []) t

theorem understood_csv (t : String) : understood false csvFormat t = .ok (.text t) := rfl

theorem understood_document {isStored : Bool} {format : String}
    (h : isStored = true ∨ format ≠ csvFormat) (t : String) :
    understood isStored format t = documentOr (.object []) t := by
  unfold understood
  rw [if_neg]
  rcases h with rfl | h
  · simp
  · simp [h]

theorem inline_text {t : String} (ht : Text.isBlankText t = false) (format : String) :
    inline (.text t) format = understood false format t := by
  unfold inline understood
  simp [ht]

end Payload

namespace Launch

/-- A request that submits a text: with the request itself, or as the content of a stored file. -/
inductive Submits (r : Request) (files : FileTree) (t : String) : Bool → Prop
  | inline (unnamed : Seed.given r.extractedPath = none) (text : r.extracted = .text t) :
      Submits r files t false
  | stored (path : String) (p : FilePath) (named : Seed.given r.extractedPath = some path)
      (place : FileTree.place payloadBucket path = .ok p) (content : files.read p = .ok t.toUTF8) :
      Submits r files t true

theorem storedDocument_exec {t path : String} {p : FilePath} (ht : Text.isBlankText t = false)
    (hp : FileTree.place payloadBucket path = .ok p) {w : World}
    (hc : w.files.read p = .ok t.toUTF8) :
    (storedDocument path).exec w =
      (match Json.parse t with
      | .ok v => .ok v
      | .error f => .error (.malformed f),w) := by
  have hread : (Storage.read payloadBucket path).exec w = (.ok t.toUTF8,w) := by
    rw [Storage.read_exec,FileTree.locate_of_place hp]
    simp only [hc]
  have htext : (Storage.readText payloadBucket path).exec w = (.ok t,w) := by
    unfold Storage.readText
    rw [exec_bind_ok hread,fromUTF8?_toUTF8]
    rfl
  unfold storedDocument
  rw [exec_bind_ok htext]
  simp only [ht,Bool.false_eq_true,if_false]
  cases Json.parse t <;> rfl

theorem spells_of_plant {v : Value} {x : Item} {w w' : World}
    (h : (Work.plant v).exec w = (.ok x,w')) : ∃ n, w'.store.Spells n v x := by
  cases h
  exact ⟨_,w.store.spells_plant v⟩

theorem loadPayload_inline {r : Request} {t format : String} {w w' : World} {submitted x : Item}
    (unnamed : Seed.given r.extractedPath = none) (text : r.extracted = .text t)
    (ht : Text.isBlankText t = false) (hleaf : w.store.isContainer submitted = false)
    (h : (loadPayload r submitted format).exec w = (.ok x,w')) :
    ∃ v n, Payload.understood false format t = .ok v ∧ w'.store.Spells n v x := by
  have hstore : Work.store.exec w = (.ok w.store,w) := rfl
  unfold loadPayload at h
  rw [unnamed] at h
  simp only at h
  rw [exec_bind_ok hstore,hleaf] at h
  simp only [Bool.false_eq_true,if_false] at h
  rw [text,Payload.inline_text ht] at h
  cases hv : Payload.understood false format t with
  | error f =>
    rw [hv] at h
    cases h
  | ok v =>
    rw [hv,of_ok,pure_bind] at h
    obtain ⟨n,hn⟩ := spells_of_plant h
    exact ⟨v,n,rfl,hn⟩

/-- A stored text is planted as the document that it spells; text that is none leaves an empty
payload. -/
theorem loadPayload_stored {r : Request} {t format path : String} {p : FilePath} {w w' : World}
    {submitted x : Item} (named : Seed.given r.extractedPath = some path)
    (place : FileTree.place payloadBucket path = .ok p) (content : w.files.read p = .ok t.toUTF8)
    (ht : Text.isBlankText t = false) (h : (loadPayload r submitted format).exec w = (.ok x,w')) :
    ∃ v n, Payload.understood true format t = .ok v ∧ w'.store.Spells n v x := by
  have hd := storedDocument_exec ht place content
  have ha : (attempt (storedDocument path)).exec w =
      (.ok ((storedDocument path).exec w).1,((storedDocument path).exec w).2) := rfl
  unfold loadPayload at h
  rw [named] at h
  simp only at h
  rw [exec_bind_ok ha,hd] at h
  rw [Payload.understood_document (.inl rfl)]
  unfold Payload.documentOr
  cases hj : Json.parse t with
  | ok v =>
    rw [hj] at h
    obtain ⟨n,hn⟩ := spells_of_plant h
    exact ⟨v,n,rfl,hn⟩
  | error f =>
    rw [hj] at h
    cases f with
    | complaint c place line column =>
      obtain ⟨n,hn⟩ := spells_of_plant (v := .object []) h
      exact ⟨_,n,rfl,hn⟩
    | tooDeep => cases h
    | tooManyDigits count => cases h

theorem loadPayload_understood {r : Request} {t : String} {isStored : Bool} {w w' : World}
    (hs : Submits r w.files t isStored) (ht : Text.isBlankText t = false) {submitted x : Item}
    (hsub : r.extracted = .text t → w.store.isContainer submitted = false) {format : String}
    (h : (loadPayload r submitted format).exec w = (.ok x,w')) :
    ∃ v n, Payload.understood isStored format t = .ok v ∧ w'.store.Spells n v x := by
  cases hs with
  | inline unnamed text => exact loadPayload_inline unnamed text ht (hsub text) h
  | stored path p named place content => exact loadPayload_stored named place content ht h

end Launch

theorem Enrich.payload_idle {kind : Option DocumentKind} {format : String}
    (h : format ≠ Payload.csvFormat →
      ∀ k, kind = some k → functionMappings k.fieldMappings = .ok []) (x : Item) (w : World) :
    (payload kind format x).exec w = (.ok ⟨⟩,w) := by
  have hstore : Work.store.exec w = (.ok w.store,w) := rfl
  unfold payload
  cases kind with
  | none => rfl
  | some k =>
    simp only
    rw [exec_bind_ok hstore]
    split
    · rfl
    · rename_i hformat
      have hne : format ≠ Payload.csvFormat := fun he => hformat (by simp [he])
      rw [h hne k rfl,of_ok,pure_bind]
      rfl

theorem Graph.stored_readOnly (workflow : Int) : ReadOnly (stored workflow) := by
  refine .database_bind (fun db => (ReadOnly.of _).bind fun nodes => ?_) fun _ _ => rfl
  exact (ReadOnly.of _).bind fun id => (ReadOnly.of _).bind fun _ => .of _

theorem Context.get_create {s s' : Store} {initial : Entries Item}
    (hg : (create s initial).1.Grows s') (k : String) :
    get s' (create s initial).2 k = (Entries.get? initial k).getD .null := by
  have hcell := hg _ _ (s.alloc_cell (.object initial))
  have hlayer : s'.layer (create s initial).2 = .object initial := by
    simp only [create,Store.alloc,Store.layer]
    rw [hcell]
    rfl
  unfold get Store.field View.field View.child?
  simp only [Store.view]
  rw [hlayer]
  rfl

namespace Launch

/-- What comes with a request and with its document leaves the submitted data as they are, and no
field is computed into them. -/
structure LeavesSubmitted (mode : Mode) (r : Request) (w : World) (format t : String) : Prop where
  request : Seed.LaysNothingOver mode r
  document : format ≠ Payload.csvFormat →
    ∀ v, Payload.documentOr (.object []) t = .ok v → Seed.DocumentLeaves v
  fields : format ≠ Payload.csvFormat → mode = .extraction →
    ∀ k, ((findKind r).exec w).1 = .ok (some k) → Enrich.functionMappings k.fieldMappings = .ok []

theorem furnish_cases {workflow : Int} {c : Seed.Source} {w w' : World} {ready : Ready}
    (h : (furnish workflow c).exec w = (.ok ready,w')) : ∃ graph seed w₁,
      (Seed.build c true).exec w = (.ok seed,w₁) ∧
      ready.context = (Context.create w₁.store seed).2 ∧
      (w'.store,ready.graph) = Graph.plant (Context.create w₁.store seed).1 graph := by
  unfold furnish at h
  obtain ⟨graph,w₁,hgraph,h⟩ := exec_bind_eq_ok h
  obtain ⟨_,w₂,hstart,h⟩ := exec_bind_eq_ok h
  obtain ⟨seed,w₃,hseed,h⟩ := exec_bind_eq_ok h
  obtain ⟨context,w₄,hcontext,h⟩ := exec_bind_eq_ok h
  obtain ⟨planted,w₅,hplanted,h⟩ := exec_bind_eq_ok h
  have hw₁ : w = w₁ := by
    have hg := (Graph.stored_readOnly workflow).same w
    rwa [hgraph] at hg
  have hw₂ : w₁ = w₂ := by
    rw [exec_discard] at hstart
    exact (Prod.mk.inj hstart).2
  subst hw₁ hw₂
  cases hcontext
  cases hplanted
  cases h
  exact ⟨graph,seed,w₃,hseed,rfl,rfl⟩

theorem furnish_extracted {workflow : Int} {c : Seed.Source} {n : Nat} {v : Value} {w w' : World}
    {ready : Ready} (hr : Seed.LaysNothingOver c.mode c.request) (hs : w.store.Spells n v c.payload)
    (hv : c.format ≠ Payload.csvFormat → Seed.DocumentLeaves v)
    (h : (furnish workflow c).exec w = (.ok ready,w')) :
    w'.store.read (Context.get w'.store ready.context Context.extractedKey) = .ok v := by
  obtain ⟨graph,seed,w₁,hseed,hcontext,hplant⟩ := furnish_cases h
  obtain ⟨hg,hget⟩ := Seed.build_extracted hr hs hv hseed
  have hstore : w'.store = (graph.plant (Context.create w₁.store seed).1).1 :=
    congrArg Prod.fst hplant
  have hgrows := Graph.plantNodes_grows (Context.create w₁.store seed).1 graph.nodes
  have hread := (((hs.grows hg).grows (Store.alloc_grows _ (.object seed))).grows hgrows).read
  have hfield := Context.get_create hgrows Context.extractedKey
  rw [hget] at hfield
  rw [hcontext,hstore]
  change Store.read _ (Context.get (Graph.plantNodes _ _).1 _ _) = _
  rw [hfield]
  exact hread

theorem prepare_understood {mode : Mode} {workflow : Int} {r : Request} {kind : Option DocumentKind}
    {format t : String} {isStored : Bool} {w₀ w w' : World} {ready : Ready}
    (hs : Submits r w.files t isStored) (ht : Text.isBlankText t = false)
    (hu : LeavesSubmitted mode r w₀ format t)
    (hkind : ∀ k, kind = some k → ((findKind r).exec w₀).1 = .ok (some k))
    (h : (prepare mode workflow r kind format).exec w = (.ok ready,w')) :
    ∃ v, Payload.understood isStored format t = .ok v ∧
      w'.store.read (Context.get w'.store ready.context Context.extractedKey) = .ok v := by
  rw [prepare_eq] at h
  obtain ⟨submitted,w₁,hsubmitted,h⟩ := exec_bind_eq_ok h
  obtain ⟨payload,w₂,hpayload,h⟩ := exec_bind_eq_ok h
  have hleaf : r.extracted = .text t → w₁.store.isContainer submitted = false := by
    intro he
    rw [he] at hsubmitted
    cases hsubmitted
    rfl
  have hfiles : w₁.files = w.files := by
    cases hsubmitted
    rfl
  obtain ⟨v,n,hv,hspells⟩ := loadPayload_understood (hfiles ▸ hs) ht hleaf hpayload
  have hplain : format ≠ Payload.csvFormat → Seed.DocumentLeaves v := by
    intro hne
    rw [Payload.understood_document (.inr hne)] at hv
    exact hu.document hne v hv
  have hrest : (furnish workflow ⟨mode,r,submitted,payload,format,kind⟩).exec w₂ =
      (.ok ready,w') := by
    split at h
    · rename_i hmode
      have hidle := Enrich.payload_idle (fun hne k hk =>
        hu.fields hne (beq_iff_eq.1 hmode) k (hkind k hk)) payload w₂
      rwa [exec_bind_ok hidle] at h
    · exact h
  exact ⟨v,hv,furnish_extracted hu.request hspells hplain hrest⟩

end Launch

end StepGraph
