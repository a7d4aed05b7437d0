import StepGraph.Proofs.KeptEntry
import StepGraph.Proofs.SeedCustody
import StepGraph.Proofs.Submission

/-!
A run departs with the submitted data set apart. They stand in containers of their own, and their
entry is the only way to them: the payload, the computed fields, the other entries of the context
and the forms of the graph are elsewhere.
-/
namespace StepGraph

open Attempt Work

namespace Store

variable {s : Store} {P Q : Nat → Prop} {id : Nat} {key : String} {o : Item}

theorem Parted.keeping {es : Entries Item} (h : s.Parted P Q [o] (Entries.others key es))
    (hget : Entries.get? es key = some o) :
    (s.alloc (.object es)).1.Keeping P Q s.cells.size key o := by
  have hgrown := h.grows (s.alloc_grows (.object es))
  constructor
  · exact hgrown.left
  · exact hgrown.right
  · exact hgrown.disjoint
  · constructor
    · exact fun hp => Nat.lt_irrefl _ (h.left.bounded _ hp)
    · exact fun hq => Nat.lt_irrefl _ (h.right.bounded _ hq)
  · refine ⟨es,s.alloc_cell _,hget,fun e he hne => h.rightMem _ ?_⟩
    exact Entries.mem_others.2 ⟨e,he,hne,rfl⟩

theorem Keeping.planted (h : s.Keeping P Q id key o) (ho : o.In P)
    (chosen : String × Node Item → Bool) (nodes : Entries (Node Value)) : ∃ P' Q',
    (Graph.plantNodes s nodes).1.Keeping P' Q' id key o ∧ o.In P' ∧
      (∀ i ∈ Graph.configs ((Graph.plantNodes s nodes).2.filter chosen), i.In P') ∧
      ∀ i ∈ Graph.configs ((Graph.plantNodes s nodes).2.filter (!chosen ·)), i.In Q' := by
  obtain ⟨es,hcell,hget,hes⟩ := h.entry
  have hpart : s.Parted P Q [o] (Entries.others key es) := by
    refine ⟨h.left,h.right,h.disjoint,List.forall_mem_singleton.2 ho,fun i hi => ?_⟩
    obtain ⟨e,he,hne,rfl⟩ := Entries.mem_others.1 hi
    exact hes e he hne
  obtain ⟨P',Q',hpart',hP',hQ'⟩ := Graph.plantNodes_parted chosen hpart nodes
  refine ⟨P',Q',⟨hpart'.left,hpart'.right,hpart'.disjoint,?_,?_⟩,?_,?_,?_⟩
  · exact ⟨fun hp => h.own.1 (hP' _ h.lt_size hp),fun hq => h.own.2 (hQ' _ h.lt_size hq)⟩
  · refine ⟨es,Graph.plantNodes_grows s nodes _ _ hcell,hget,fun e he hne => ?_⟩
    exact hpart'.rightMem _ (List.mem_append_right _ (Entries.mem_others.2 ⟨e,he,hne,rfl⟩))
  · exact hpart'.leftMem _ (List.mem_append_right _ (List.mem_singleton_self o))
  · exact fun i hi => hpart'.leftMem i (List.mem_append_left _ hi)
  · exact fun i hi => hpart'.rightMem i (List.mem_append_left _ hi)

end Store

namespace Launch

/-- What a run is seeded from: the payload, with its computed fields, beside the submitted data. -/
def sourced (mode : Mode) (r : Request) (kind : Option DocumentKind) (format : String) :
    Work Seed.Source := do
  let submitted ← Work.plant r.extracted
  let payload ← loadPayload r submitted format
  if mode == .extraction then Enrich.payload kind format payload
  return ⟨mode,r,submitted,payload,format,kind⟩

theorem prepare_sourced (mode : Mode) (workflow : Int) (r : Request) (kind : Option DocumentKind)
    (format : String) : prepare mode workflow r kind format =
      sourced mode r kind format >>= furnish workflow := by
  rw [prepare_eq]
  unfold sourced
  simp only [bind_assoc]
  refine bind_congr fun submitted => bind_congr fun payload => ?_
  split <;> simp only [bind_assoc,pure_bind]

/-- Submitted data that do not become the payload: a stored document is named, or they are no
container. -/
def SubmittedApart (r : Request) : Prop :=
  Seed.given r.extractedPath = none → ∃ a, r.extracted = .scalar a

variable {c : Item} {C : Custody c} {live : List Item}

theorem loadPayload_minds {r : Request} {submitted : Item}
    (hs : Seed.given r.extractedPath = none → ∃ a, submitted = .leaf a) (format : String) :
    C.Minds live (loadPayload r submitted format) fun x => [x] := by
  unfold loadPayload
  split
  · refine .appendOnly (storedDocument_readOnly _).appendOnly.attempt fun done => ?_
    split
    · exact .plant _
    · split
      · exact .plant (.object [])
      · exact .throw _
  · rename_i hunnamed
    obtain ⟨a,rfl⟩ := hs hunnamed
    refine .appendOnly .store fun s => ?_
    rw [if_neg (show ¬ s.isContainer (.leaf a) = true from Bool.false_ne_true)]
    exact .appendOnly (.of _) fun v => .plant v

theorem plant_protected (s : Store) (v : Value) : ∃ P,
    (Custody.protecting P .null).Holds [] (s.plant v).1 ∧ (s.plant v).2.In P := by
  have hempty : s.Parted (fun _ => False) (fun _ => False) [] [] := by
    refine ⟨⟨?_,?_⟩,⟨?_,?_⟩,?_,?_,?_⟩ <;> simp
  obtain ⟨P,hpart,-⟩ := hempty.plant v
  refine ⟨P,⟨hpart.right,_,hpart.left,?_,?_⟩,hpart.rightMem _ List.mem_cons_self⟩
  · exact List.forall_mem_singleton.2 trivial
  · exact fun id hp hfalse => hpart.disjoint id hfalse hp

theorem sourced_keeps {mode : Mode} {r : Request} {kind : Option DocumentKind} {format : String}
    {w w' : World} {c : Seed.Source} (hs : SubmittedApart r)
    (h : (sourced mode r kind format).exec w = (.ok c,w')) :
    c.mode = mode ∧ c.request = r ∧ (∃ n, w'.store.Spells n r.extracted c.submitted) ∧
      ∃ P, (Custody.protecting P .null).Holds [c.payload] w'.store ∧ c.submitted.In P := by
  unfold sourced at h
  obtain ⟨submitted,w₁,hsubmitted,h⟩ := exec_bind_eq_ok h
  cases hsubmitted
  obtain ⟨P,hP,hin⟩ := plant_protected w.store r.extracted
  have hspells := w.store.spells_plant r.extracted
  have hleaf (hunnamed : Seed.given r.extractedPath = none) :
      ∃ a, (w.store.plant r.extracted).2 = .leaf a := by
    obtain ⟨a,ha⟩ := hs hunnamed
    exact ⟨a,by rw [ha]; rfl⟩
  -- From here on the submitted data are protected, and the payload is made beside them.
  obtain ⟨payload,w₂,hpayload,h⟩ := exec_bind_eq_ok h
  let w₁ : World := { w with store := (w.store.plant r.extracted).1 }
  obtain ⟨hkept,-,hnamed⟩ := loadPayload_minds hleaf format w₁ hP
  change (loadPayload r (w.store.plant r.extracted).2 format).exec w₁ = _ at hpayload
  rw [hpayload] at hkept hnamed
  have hheld := hnamed payload rfl
  split at h
  · obtain ⟨_,w₃,hcomputed,h⟩ := exec_bind_eq_ok h
    obtain ⟨hkept',hheld',-⟩ := Enrich.payload_minds List.mem_cons_self kind format w₂ hheld
    rw [hcomputed] at hkept' hheld'
    cases h
    have hagrees := (Custody.protecting P .null).trans hkept hkept'
    exact ⟨rfl,rfl,⟨_,hP.sealed.spells hagrees hin hspells⟩,P,hheld',hin⟩
  · cases h
    exact ⟨rfl,rfl,⟨_,hP.sealed.spells hkept hin hspells⟩,P,hheld,hin⟩

/-- The configurations of forms; they may be filled in where they stand. -/
def isForm (e : String × Node Item) : Bool :=
  match e.2 with
  | .start _ => false
  | .step n => n.kind? == some .multipartUpload

def forms (nodes : Entries (Node Item)) : List Item := Graph.configs (nodes.filter isForm)

theorem extracted_ne_original : Context.extractedKey ≠ Seed.originalKey := by decide

/-- A graph and a context that keeps the submitted data. The containers that are protected are those
of the submitted data and of the configurations, but for the forms. -/
structure KeepsSubmitted (g : Graph Item) (s : Store) (P : Nat → Prop) (id : Nat) (submitted : Item) :
    Prop where
  holds : (Custody.keeping P id extracted_ne_original submitted).Holds (forms g.nodes) s
  own : submitted.In P
  configs : ∀ name n, Entries.get? g.nodes name = some (.step n) → isForm (name,.step n) = false →
    n.config.In P
  spelled : ∀ name n, Entries.get? g.nodes name = some (.step n) → ∃ d v, s.Spells d v n.config

theorem furnish_keepsSubmitted {workflow : Int} {c : Seed.Source} {P : Nat → Prop} {w w' : World}
    {ready : Ready} (hP : (Custody.protecting P .null).Holds [c.payload] w.store)
    (hin : c.submitted.In P) (hr : Seed.Unnamed Seed.originalKey c.mode c.request)
    (hp : ∀ l ∈ Seed.payloadLayers w.store c, Seed.originalKey ∉ Entries.keys l)
    (h : (furnish workflow c).exec w = (.ok ready,w')) :
    w.store.Grows w'.store ∧ ∃ id P', ready.context = .cell id ∧
      KeepsSubmitted ready.graph w'.store P' id c.submitted := by
  obtain ⟨graph,seed,w₁,hseed,hcontext,hplant⟩ := furnish_cases h
  have hkept := Seed.build_minds List.mem_cons_self w hP
  rw [hseed] at hkept
  obtain ⟨hsealed,Q,hQ,hmem,hd⟩ := hkept.2.2 seed rfl
  obtain ⟨-,Q₀,hQ₀,hpayload,-⟩ := hP
  have hlayers (s : Store) (hgs : w.store.Grows s) :
      ∀ l ∈ Seed.payloadLayers s c, Seed.originalKey ∉ Entries.keys l := by
    rw [Seed.payloadLayers_grows hQ₀ (hpayload _ List.mem_cons_self) hgs]
    exact hp
  obtain ⟨hg,hget⟩ := Seed.build_get (by decide +kernel) hr hlayers hseed
  rw [(Seed.requestFields_get c w.now).2] at hget
  -- Of what the seed names only this entry is protected; the others are apart from it.
  have hpart : w₁.store.Parted P Q [c.submitted] (Entries.others Seed.originalKey seed) :=
    ⟨hsealed,hQ,hd,List.forall_mem_singleton.2 hin,fun i hi =>
      hmem i (List.mem_append_left _ (List.mem_append_left _ hi))⟩
  have hcontext' := hpart.keeping hget
  obtain ⟨P',Q',hkeeping,hown,hfixed,hforms⟩ :=
    hcontext'.planted hin (fun e => !isForm e) graph.nodes
  simp only [Bool.not_not] at hforms
  obtain ⟨hstore,hready⟩ := Prod.mk.inj hplant
  rw [hstore,hready]
  have hgrows := trans_of Store.Grows hg (w₁.store.alloc_grows (.object seed))
  have hgrows' := trans_of Store.Grows hgrows (Graph.plantNodes_grows _ graph.nodes)
  refine ⟨hgrows',w₁.store.cells.size,P',hcontext,?_⟩
  refine ⟨⟨Q',hkeeping,hforms⟩,hown,fun name n hn hform => hfixed _ ?_,fun name n hn => ?_⟩
  · apply Graph.mem_configs_filter hn
    rw [hform]
    rfl
  · exact Graph.plantNodes_spells _ _ hn

end Launch

end StepGraph
