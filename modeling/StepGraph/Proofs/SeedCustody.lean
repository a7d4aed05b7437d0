import StepGraph.Proofs.ComputedField
import StepGraph.Proofs.Overlay

/-!
The first context under a custody. Apart from the submitted data, all that it names is a leaf, is
new or is reached from the payload.
-/
namespace StepGraph

open Attempt Edit Work

namespace Entries

variable {α : Type} {k : String}

def others (k : String) (es : Entries α) : List α := (es.filter (·.1 != k)).map Prod.snd

theorem mem_others {es : Entries α} {x : α} : x ∈ others k es ↔ ∃ e ∈ es, e.1 ≠ k ∧ e.2 = x := by
  simp [others]

theorem others_foldl_merge {layers : List (Entries α)} {x : α}
    (h : x ∈ others k (layers.foldl merge [])) : ∃ l ∈ layers, x ∈ others k l := by
  obtain ⟨e,he,hne,rfl⟩ := mem_others.1 h
  rcases mem_foldl_merge he with he | ⟨l,hl,he⟩
  · cases he
  · exact ⟨l,hl,mem_others.2 ⟨e,he,hne,rfl⟩⟩

theorem mem_of_others {es : Entries α} {x : α} (h : x ∈ others k es) : x ∈ es.map Prod.snd := by
  obtain ⟨e,he,-,rfl⟩ := mem_others.1 h
  exact List.mem_map_of_mem he

end Entries

namespace Seed

variable {o : Item} {C : Custody o} {live : List Item} {c : Source}

theorem plantFields_minds (es : Entries Value) :
    C.Minds live (plantFields es) fun is => is.map Prod.snd := by
  have planted (e : String × Value) (live' : List Item) :
      C.Minds live' (do return (e.1,← Work.plant e.2)) fun e => [e.2] := by
    refine (Custody.Respects.plant e.2).bind fun i => .pure ?_
    simp [Among]
  refine Custody.Respects.fewer (.mapM fun e _ live' _ => planted e live') fun is i hi => ?_
  obtain ⟨e,he,rfl⟩ := List.mem_map.1 hi
  exact List.mem_flatMap.2 ⟨e,he,List.mem_singleton_self _⟩

theorem groupLayer_minds (r : Request) :
    C.Minds live (groupLayer r) fun is => is.map Prod.snd := by
  have empty : C.Minds live (pure [] : Work (Entries Item)) fun is => is.map Prod.snd :=
    .pure (by simp)
  unfold groupLayer
  split
  · split
    · exact empty
    · refine .appendOnly (groupFields_readOnly _ _).appendOnly.attempt fun done => ?_
      split
      · exact plantFields_minds _
      · split
        · exact empty
        · exact .throw _
  · exact empty

@[simp] theorem textItem_leaf (s : Option String) : ∃ a, textItem s = .leaf a := by
  cases s <;> exact ⟨_,rfl⟩

theorem requestFields_cases (c : Source) (now : Int) :
    ∀ e ∈ requestFields c now, e.1 = originalKey ∨ e.2 = c.payload ∨ ∃ a, e.2 = .leaf a := by
  unfold requestFields
  cases c.mode <;> simp [extractionFields,transformationFields,originalKey]

theorem modeLayers_minds (hp : c.payload ∈ live) :
    C.Minds live (modeLayers c) fun ls => ls.flatMap (Entries.others originalKey) := by
  have first (now : Int) :
      ∀ i ∈ Entries.others originalKey (requestFields c now), Among live i := by
    intro i hi
    obtain ⟨e,he,hne,rfl⟩ := Entries.mem_others.1 hi
    rcases requestFields_cases c now e he with h | h | h
    · exact absurd h hne
    · exact .inl (h ▸ hp)
    · exact .inr h
  unfold requestFields at first
  unfold modeLayers
  split
  · rename_i hmode
    rw [hmode] at first
    refine .pure fun i hi => first 0 i ?_
    simpa using hi
  · rename_i hmode
    rw [hmode] at first
    refine .appendOnly (.of _) fun more => ?_
    refine Custody.Respects.bind (a := fun _ => []) (.looks fun _ => rfl) fun w => ?_
    refine (plantFields_minds more).bind fun is => .pure fun i hi => ?_
    simp only [List.flatMap_cons,List.flatMap_nil,List.append_nil,List.mem_append] at hi
    rcases hi with hi | hi
    · refine (first w.now i hi).mono fun j hj => ?_
      exact List.mem_append_right _ (List.mem_append_right _ hj)
    · exact .inl (List.mem_append_left _ (Entries.mem_of_others hi))

def payloadItems (s : Store) (c : Source) : List Item :=
  (payloadLayers s c).flatMap fun l => l.map Prod.snd

theorem payloadItems_in {s : Store} {P : Nat → Prop} (h : s.Region P) (hp : c.payload.In P) :
    ∀ i ∈ payloadItems s c, i.In P := by
  have entries {i : Item} (hi : i.In P) : ∀ j ∈ (s.entries i).map Prod.snd, j.In P := by
    have hb := h.below hi
    unfold Store.entries
    split
    · rename_i es hl
      rw [hl] at hb
      exact hb
    · simp
  unfold payloadItems payloadLayers
  split
  · simp
  · intro i hi
    simp only [List.flatMap_cons,List.flatMap_nil,List.append_nil,List.mem_append] at hi
    rcases hi with hi | hi
    · exact entries hp i hi
    · have hb := h.below (h.field hp "orders")
      split at hi
      · rename_i first rest hl
        rw [hl] at hb
        exact entries (hb first List.mem_cons_self) i hi
      · simp at hi

theorem payloadLayers_grows {s s' : Store} {P : Nat → Prop} (h : s.Region P) (hp : c.payload.In P)
    (hg : s.Grows s') : payloadLayers s' c = payloadLayers s c := by
  have hlayer {i : Item} (hi : i.In P) : s'.layer i = s.layer i := (h.agrees hg).layer hi
  have hentries {i : Item} (hi : i.In P) : s'.entries i = s.entries i := by
    unfold Store.entries
    rw [hlayer hi]
  have horders : s'.field c.payload "orders" = s.field c.payload "orders" := by
    unfold Store.field View.field View.child?
    simp only [Store.view,hlayer hp]
    rfl
  have hfield := h.field hp "orders"
  have hb := h.below hfield
  unfold payloadLayers
  rw [hentries hp,horders,hlayer hfield]
  cases hl : s.layer (s.field c.payload "orders") with
  | list xs =>
    cases xs with
    | nil => rfl
    | cons i rest =>
      rw [hl] at hb
      simp only
      rw [hentries (hb i List.mem_cons_self)]
  | _ => rfl

theorem build_minds (hp : c.payload ∈ live) :
    C.Minds live (build c true) (Entries.others originalKey) := by
  unfold build layers
  simp only [bind_assoc,if_true]
  refine (modeLayers_minds hp).bind fun own => (plantFields_minds _).bind fun context => ?_
  refine .look (fun s Q hQ => payloadItems_in (c := c) hQ.region ?_) fun s => ?_
  · exact hQ.mem _ (by simp [hp])
  refine (groupLayer_minds c.request).bind fun groups => ?_
  rw [pure_bind]
  refine .pure fun i hseed => .inl ?_
  obtain ⟨l,hl,hi⟩ := Entries.others_foldl_merge hseed
  have hown (h : l ∈ own) : i ∈ own.flatMap (Entries.others originalKey) :=
    List.mem_flatMap.2 ⟨l,h,hi⟩
  have hfound (h : l ∈ payloadLayers s c) : i ∈ payloadItems s c :=
    List.mem_flatMap.2 ⟨l,h,Entries.mem_of_others hi⟩
  simp only [List.mem_append,List.mem_singleton] at hl ⊢
  rcases hl with ((hl | rfl) | hl) | rfl
  · exact .inr (.inr (.inr (.inl (hown hl))))
  · exact .inr (.inr (.inl (Entries.mem_of_others hi)))
  · exact .inr (.inl (hfound hl))
  · exact .inl (Entries.mem_of_others hi)

end Seed

end StepGraph
