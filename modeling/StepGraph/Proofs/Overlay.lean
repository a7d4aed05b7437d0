import StepGraph.Proofs.Keys
import StepGraph.Proofs.Planted
import StepGraph.Proofs.Prepare

/-!
Which layer gives an entry of the first context. The extracted data and the submitted ones are in
the first layer; they stay there if no later layer has an entry of that name. Layers of earlier
groups have none, as their names say of which group they are.
-/
namespace StepGraph

open Attempt Work

namespace Seed

def Leaves {α : Type} (layer : Entries α) : Prop := Context.extractedKey ∉ Entries.keys layer

theorem plantFields_exec (es : Entries Value) (w : World) : ∃ is s,
    (plantFields es).exec w = (.ok is,{ w with store := s }) ∧ w.store.Grows s ∧
      s.SpellsFields s.cells.size es is := by
  unfold plantFields
  induction es generalizing w with
  | nil => exact ⟨[],w.store,rfl,refl_of Store.Grows w.store,.nil _⟩
  | cons e es ih =>
    obtain ⟨is,s,hw,hg,hs⟩ := ih { w with store := (w.store.plant e.2).1 }
    have he : (do return (e.1,← Work.plant e.2) : Work (String × Item)).exec w =
        (.ok (e.1,(w.store.plant e.2).2),{ w with store := (w.store.plant e.2).1 }) := rfl
    have hgrows := trans_of Store.Grows (w.store.plant_grows e.2) hg
    refine ⟨(e.1,(w.store.plant e.2).2) :: is,s,?_,hgrows,?_⟩
    · rw [List.mapM_cons,exec_bind_ok he,exec_bind_ok hw]
      rfl
    · exact .cons ((Store.spells_plant w.store e.2).mono hg hg.size_le) hs

theorem plantFields_keys {es : Entries Value} {w w' : World} {is : Entries Item}
    (hw : (plantFields es).exec w = (.ok is,w')) :
    Entries.keys is = Entries.keys es ∧ w.store.Grows w'.store := by
  obtain ⟨is',s,hw',hg,hs⟩ := plantFields_exec es w
  cases hw.symm.trans hw'
  exact ⟨hs.keys,hg⟩

theorem groupFields_readOnly (session : String) (order : Int) :
    ReadOnly (groupFields session order) := by
  refine .database_bind (fun db => (ReadOnly.of _).bind fun rows => ?_) fun _ _ => rfl
  exact (ReadOnly.of _).bind fun order => (ReadOnly.of _).bind fun layers => ReadOnly.closed.pure _

section

variable {k : String} (hk : k.toList.head? ≠ some 'g')

include hk

theorem group_ne (order : Int) (name : String) : "group" ++ toString order ++ "_" ++ name ≠ k := by
  rintro rfl
  simp at hk

theorem groupEntries_keys {g : GroupData} {es : Entries Value} (h : groupEntries g = .ok es) :
    k ∉ Entries.keys es := by
  unfold groupEntries at h
  split at h
  · split at h
    · cases h
      intro hm
      obtain ⟨e,he,hk'⟩ := List.mem_map.1 hm
      obtain ⟨f,-,rfl⟩ := List.mem_map.1 he
      exact group_ne hk _ _ hk'
    · cases h
  · cases h
    simp [Entries.keys]

omit hk in
theorem forall_of_mapM {β γ : Type} {f : β → Except Fault γ} {P : γ → Prop}
    (hf : ∀ x y, f x = .ok y → P y) {xs : List β} {ys : List γ} (h : xs.mapM f = .ok ys) :
    ∀ y ∈ ys, P y := by
  induction xs generalizing ys with
  | nil =>
    cases h
    simp
  | cons x xs ih =>
    rw [List.mapM_cons] at h
    obtain ⟨y,hy,h⟩ := eq_ok_of_bind h
    obtain ⟨rest,hrest,h⟩ := eq_ok_of_bind h
    cases h
    exact List.forall_mem_cons.2 ⟨hf x y hy,ih hrest⟩

theorem groupFields_keys (session : String) (order : Int) :
    Gives (fun es => k ∉ Entries.keys es) (groupFields session order) := by
  unfold groupFields
  apply Gives.bind
  intro db
  refine .of_bind fun rows _ => .of_bind fun order _ => .of_bind fun layers hl => .pure ?_
  exact Entries.not_mem_keys_foldl (forall_of_mapM (fun _ _ => groupEntries_keys hk) hl)
    (by simp [Entries.keys])

theorem groupLayer_keys {r : Request} {w w' : World} {is : Entries Item}
    (h : (groupLayer r).exec w = (.ok is,w')) : k ∉ Entries.keys is ∧ w.store.Grows w'.store := by
  have empty (h : ((pure [] : Work (Entries Item))).exec w = (.ok is,w')) :
      k ∉ Entries.keys is ∧ w.store.Grows w'.store := by
    cases h
    exact ⟨by simp [Entries.keys],refl_of Store.Grows w.store⟩
  unfold groupLayer at h
  split at h
  · rename_i session order _ _
    split at h
    · exact empty h
    · have ha : (attempt (groupFields session order)).exec w =
          (.ok ((groupFields session order).exec w).1,w) :=
        Prod.ext rfl ((groupFields_readOnly session order).same w).symm
      rw [exec_bind_ok ha] at h
      cases hes : ((groupFields session order).exec w).1 with
      | ok es =>
        rw [hes] at h
        obtain ⟨hsame,hg⟩ := plantFields_keys h
        exact ⟨hsame ▸ groupFields_keys hk session order w es hes,hg⟩
      | error f =>
        rw [hes] at h
        simp only at h
        split at h
        · exact empty h
        · cases h
  · exact empty h

end

/-- Neither a request's own context nor its workflow data have an entry of a name. -/
structure Unnamed (k : String) (mode : Mode) (r : Request) : Prop where
  context : k ∉ Entries.keys (r.context.getD [])
  workflow : mode = .extraction →
    ∀ es, workflowFields r.workflowData = .ok es → k ∉ Entries.keys es

/-- What a request lays over the extracted data: nothing. -/
structure LaysNothingOver (mode : Mode) (r : Request) : Prop where
  context : Leaves (r.context.getD [])
  workflow : mode = .extraction → ∀ es, workflowFields r.workflowData = .ok es → Leaves es

theorem LaysNothingOver.unnamed {mode : Mode} {r : Request} (h : LaysNothingOver mode r) :
    Unnamed Context.extractedKey mode r := ⟨h.context,h.workflow⟩

def requestFields (c : Source) (now : Int) : Entries Item :=
  match c.mode with
  | .extraction => extractionFields c now
  | .transformation => transformationFields c

def originalKey : String := "originalExtractedData"

theorem requestFields_get (c : Source) (now : Int) :
    Entries.get? (Entries.merge [] (requestFields c now)) Context.extractedKey = some c.payload ∧
    Entries.get? (Entries.merge [] (requestFields c now)) originalKey = some c.submitted := by
  unfold requestFields
  cases c.mode <;>
    simp [extractionFields,transformationFields,Entries.merge,Entries.put,Entries.get?,
      Context.extractedKey,originalKey]

theorem modeLayers_exec {c : Source} {w w' : World} {layers : List (Entries Item)}
    (h : (modeLayers c).exec w = (.ok layers,w')) :
    w.store.Grows w'.store ∧ ∃ rest, layers = requestFields c w.now :: rest ∧
      ∀ k, Unnamed k c.mode c.request → ∀ l ∈ rest, k ∉ Entries.keys l := by
  unfold modeLayers at h
  unfold requestFields
  split at h
  · rename_i hmode
    cases h
    rw [hmode]
    exact ⟨refl_of Store.Grows w.store,[],rfl,by simp⟩
  · rename_i hmode
    rcases hes : workflowFields c.request.workflowData with f | es <;> rw [hes] at h
    · cases h
    · have hm : (Work.of (.ok es) : Work _).exec w = (.ok es,w) := rfl
      obtain ⟨is,s,hw,hg,hs⟩ := plantFields_exec es w
      rw [exec_bind_ok hm,exec_bind_ok (exec_get w),exec_bind_ok hw,exec_pure] at h
      obtain ⟨hl,rfl⟩ := Prod.mk.inj h
      rw [← Except.ok.inj hl,hmode]
      refine ⟨hg,[is],rfl,fun k hr l hl => ?_⟩
      obtain rfl := List.mem_singleton.1 hl
      rw [hs.keys]
      exact hr.workflow rfl es hes

/-- A document that lays nothing over the extracted data either: neither it nor its first order has
a field of that name. -/
structure DocumentLeaves (v : Value) : Prop where
  own : Leaves v.entries
  first : ∀ x xs, v.field "orders" = .list (x :: xs) → Leaves x.entries

theorem payloadLayers_leaves {s : Store} {c : Source} {n : Nat} {v : Value}
    (hs : s.Spells n v c.payload) (hv : c.format ≠ Payload.csvFormat → DocumentLeaves v) :
    ∀ l ∈ payloadLayers s c, Leaves l := by
  unfold payloadLayers
  split
  · simp
  · rename_i hformat
    obtain ⟨hown,hfirst⟩ := hv fun he => hformat (beq_iff_eq.2 he)
    have hfield := hs.field "orders"
    refine List.forall_mem_cons.2 ⟨?_,List.forall_mem_singleton.2 ?_⟩
    · unfold Leaves
      rwa [hs.keys]
    · split
      · rename_i o rest hl
        obtain ⟨x,xs,m,hx,ho⟩ := hfield.head hl
        unfold Leaves
        rw [ho.keys]
        exact hfirst x xs hx
      · simp [Leaves,Entries.keys]

theorem build_get {c : Source} {k : String} (hk : k.toList.head? ≠ some 'g')
    (hr : Unnamed k c.mode c.request) {w w' : World} {seed : Entries Item}
    (hp : ∀ s, w.store.Grows s → ∀ l ∈ payloadLayers s c, k ∉ Entries.keys l)
    (h : (build c true).exec w = (.ok seed,w')) :
    w.store.Grows w'.store ∧
      Entries.get? seed k = Entries.get? (Entries.merge [] (requestFields c w.now)) k := by
  unfold build layers at h
  simp only [bind_assoc,if_true] at h
  obtain ⟨own,w₁,hown,h⟩ := exec_bind_eq_ok h
  obtain ⟨context,w₂,hcontext,h⟩ := exec_bind_eq_ok h
  obtain ⟨s,w₂',hstore,h⟩ := exec_bind_eq_ok h
  obtain ⟨rfl,rfl⟩ : w₂.store = s ∧ w₂ = w₂' := by
    cases hstore
    exact ⟨rfl,rfl⟩
  obtain ⟨groups,w₃,hgroups,h⟩ := exec_bind_eq_ok h
  rw [pure_bind] at h
  cases h
  obtain ⟨hg₁,rest,rfl,hrest⟩ := modeLayers_exec hown
  obtain ⟨hkc,hg₂⟩ := plantFields_keys hcontext
  obtain ⟨hkg,hg₃⟩ := groupLayer_keys hk hgroups
  have hlp := hp w₂.store (trans_of Store.Grows hg₁ hg₂)
  refine ⟨trans_of Store.Grows hg₁ (trans_of Store.Grows hg₂ hg₃),?_⟩
  have hlater : ∀ l ∈ rest ++ [context] ++ payloadLayers w₂.store c ++ [groups],
      k ∉ Entries.keys l := by
    intro l hl
    simp only [List.mem_append,List.mem_singleton] at hl
    rcases hl with ((hl | rfl) | hl) | rfl
    · exact hrest k hr l hl
    · rw [hkc]
      exact hr.context
    · exact hlp l hl
    · exact hkg
  change Entries.get? (List.foldl Entries.merge (Entries.merge [] (requestFields c w.now))
    (rest ++ [context] ++ payloadLayers w₂.store c ++ [groups])) k = _
  rw [Entries.get?_foldl_merge hlater]

theorem build_extracted {c : Source} (hr : LaysNothingOver c.mode c.request) {w w' : World}
    {seed : Entries Item} {n : Nat} {v : Value} (hs : w.store.Spells n v c.payload)
    (hv : c.format ≠ Payload.csvFormat → DocumentLeaves v)
    (h : (build c true).exec w = (.ok seed,w')) :
    w.store.Grows w'.store ∧ Entries.get? seed Context.extractedKey = some c.payload := by
  obtain ⟨hg,hget⟩ := build_get (by decide +kernel) hr.unnamed
    (fun s hgs => payloadLayers_leaves (hs.grows hgs) hv) h
  exact ⟨hg,hget.trans (requestFields_get c w.now).1⟩

end Seed

end StepGraph
