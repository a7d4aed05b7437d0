import StepGraph.Proofs.Computing
import StepGraph.Proofs.Precedence

/-!
Computing the fields of a payload before a run. What stops a function is passed over, but listing
the mappings and putting their keys into a query come before anything is passed over: there are
computed fields just where the mappings can be listed and their keys can be asked.
-/
namespace StepGraph.Enrich

open Attempt FieldFunction Work

variable {w : World} {mappings : List Value} {o : Owned}

def documents (db : Database) : Documents := db.functions.rows.map fun r => (.int r.id,r.logic)

/-- A query for the functions of mappings can hold their keys: there is no such query, or every
number fits into a record. -/
def KeysFit (db : Database) (mappings : List Value) : Prop :=
  (∀ m ∈ mappings, ∃ a, m.field "functionId" = .scalar a) → db.functions.present = true →
    ∀ m ∈ mappings, ∀ i, m.field "functionId" = .int i → fitsRecord i = true

theorem queryKey_forgiving (m : Value) : Forgiving (queryKey m) := by
  unfold queryKey
  split <;> first | exact .ok _ | exact .error rfl

theorem queryKey_ok {m : Value} {a : Scalar} (h : m.field "functionId" = .scalar a) :
    ∃ key, queryKey m = .ok key ∧ (key.all fitsRecord = true ↔
      ∀ i, m.field "functionId" = .int i → fitsRecord i = true) := by
  unfold queryKey
  rw [h]
  cases a <;> exact ⟨_,rfl,by simp⟩

theorem scalar_of_queryKey {m : Value} {key : Option Int} (h : queryKey m = .ok key) :
    ∃ a, m.field "functionId" = .scalar a := by
  unfold queryKey at h
  cases hv : m.field "functionId" with
  | scalar a => exact ⟨a,rfl⟩
  | list xs =>
    rw [hv] at h
    cases h
  | object es =>
    rw [hv] at h
    cases h

theorem queryKeys_ok (h : ∀ m ∈ mappings, ∃ a, m.field "functionId" = .scalar a) :
    ∃ keys, mappings.mapM queryKey = .ok keys ∧ (heldAll keys = .ok () ↔
      ∀ m ∈ mappings, ∀ i, m.field "functionId" = .int i → fitsRecord i = true) := by
  have fits : ∃ keys, mappings.mapM queryKey = .ok keys ∧
      (keys.all (fun key => key.all fitsRecord) = true ↔
        ∀ m ∈ mappings, ∀ i, m.field "functionId" = .int i → fitsRecord i = true) := by
    induction mappings with
    | nil => exact ⟨[],rfl,by simp⟩
    | cons m rest ih =>
      obtain ⟨⟨a,ha⟩,hrest⟩ := List.forall_mem_cons.1 h
      obtain ⟨key,hkey,hfits⟩ := queryKey_ok ha
      obtain ⟨keys,hkeys,hall⟩ := ih hrest
      refine ⟨key :: keys,?_,?_⟩
      · rw [List.mapM_cons,hkey,hkeys]
        rfl
      · rw [List.all_cons,Bool.and_eq_true,hfits,hall,List.forall_mem_cons]
  obtain ⟨keys,hkeys,hall⟩ := fits
  refine ⟨keys,hkeys,?_⟩
  rw [← hall]
  unfold heldAll
  split <;> simp_all

theorem scalar_of_queryKeys {keys : List (Option Int)} (h : mappings.mapM queryKey = .ok keys) :
    ∀ m ∈ mappings, ∃ a, m.field "functionId" = .scalar a := by
  have hf := Fault.forall₂_of_mapM h
  clear h
  induction hf with
  | nil => simp
  | cons hm _ ih => exact List.forall_mem_cons.2 ⟨scalar_of_queryKey hm,ih⟩

theorem library_forgivingOr (hk : KeysFit w.db mappings) :
    ForgivingOr (library mappings) w fun functions w' => ∃ s' os, w' = { w with store := s' } ∧
      w.store.Grows s' ∧ Owned.Planted (fun _ => False) w.store s' os ∧
      LibraryTells s' (· ∈ os.flatMap Owned.ids) functions (documents w.db) := by
  unfold library
  refine .of_bind (.mapM fun m _ => queryKey_forgiving m) fun keys hkeys => .database ?_
  have hscalar := scalar_of_queryKeys hkeys
  obtain ⟨keys',hkeys',hheld⟩ := queryKeys_ok hscalar
  cases hkeys.symm.trans hkeys'
  unfold Table.all
  split
  · rename_i hpresent
    refine .of_bind (.ok _) fun rows hrows => ?_
    cases hrows
    rw [hheld.2 (hk hscalar hpresent)]
    obtain ⟨functions,s',os,hexec,hdocs⟩ := plant_docs (documents w.db) w
    unfold documents at hexec
    rw [List.mapM_map] at hexec
    exact .of_exec hexec ⟨s',os,rfl,hdocs⟩
  · exact .of_bind (.error rfl) fun _ h => by cases h

theorem library_fails (hk : ¬KeysFit w.db mappings) :
    (library mappings).exec w = (.error (.misuse .tooLarge),w) := by
  unfold KeysFit at hk
  rw [Classical.not_imp,Classical.not_imp] at hk
  obtain ⟨hscalar,hpresent,hbad⟩ := hk
  obtain ⟨keys,hkeys,hheld⟩ := queryKeys_ok hscalar
  have hall : w.db.functions.all = .ok w.db.functions.rows := if_pos hpresent
  have hheld : heldAll keys = .error (.misuse .tooLarge) := by
    rw [← hheld] at hbad
    unfold heldAll at hbad ⊢
    split
    · rename_i hfits
      exact absurd (if_pos hfits) hbad
    · rfl
  unfold library
  rw [hkeys,exec_bind_of,exec_database,hall,exec_bind_of,hheld]
  rfl

def LooksUpAddress (docs : Documents) (mappings : List Value) : Prop :=
  ∃ m ∈ mappings, ∃ logic, Uses docs m logic ∧ named? logic = some lookupName

def ComparesByOrder (docs : Documents) (mappings : List Value) : Prop :=
  ∃ m ∈ mappings, ∃ logic, Uses docs m logic ∧ Compares logic

/-- What the computed fields of a payload need for being passed over where they cannot be computed:
a text names each field, the documents of the functions are sound, no completion nests too deep
where an address is looked up, numbers are in the range of doubles where they are compared by order,
and no mapping writes below a container that an earlier one passes on. -/
structure Evaluable (w : World) (mappings : List Value) (payload : Value) : Prop where
  names : ∀ m ∈ mappings, (m.field "fieldName").truthy = true → (m.field "fieldName").isText = true
  sound : ∀ m ∈ mappings, ∀ logic, Uses (documents w.db) m logic → Sound logic
  legible : LooksUpAddress (documents w.db) mappings → w.Legible
  moderate : ComparesByOrder (documents w.db) mappings →
    payload.Moderate ∧ ∀ m ∈ mappings, ∀ logic, Uses (documents w.db) m logic → logic.Moderate
  apart : NoneWritesBelow (documents w.db) mappings

theorem applyStored_forgivingOr (hk : KeysFit w.db mappings) (hm : ∀ m ∈ mappings, m.isObject = true)
    (h : Evaluable w mappings o.tree) (ho : Owned.Held (fun _ => False) w.store [o])
    (hp : o.GuestFree) : ForgivingOr (applyStored mappings o.item) w fun _ _ => True := by
  refine (library_forgivingOr hk).bind ?_
  rintro functions _ ⟨s',os,rfl,hg,hdocs,hshelved⟩
  have serves : ∀ m ∈ mappings, SoundMapping (documents w.db) (LooksUpAddress (documents w.db) mappings)
      (ComparesByOrder (documents w.db) mappings) m := fun m hmem =>
    { object := hm m hmem
      name := h.names m hmem
      sound := h.sound m hmem
      looks := fun logic hu hn => ⟨m,hmem,logic,hu,hn⟩
      compares := fun logic hu hc => ⟨m,hmem,logic,hu,hc⟩
      moderate := fun hr => (h.moderate hr).2 m hmem }
  -- The documents are put behind the payload, so no container of it is one of theirs.
  have held : Owned.Held (· ∈ os.flatMap Owned.ids) s' [o] :=
    (ho.grows hg).beside (List.forall_mem_singleton.2 hp) hdocs.region fun id hid hdoc =>
      Nat.not_lt.2 (hdocs.fresh id hdoc) (ho.lt id hid)
  have legible : LooksUpAddress (documents w.db) mappings → World.Legible { w with store := s' } :=
    h.legible
  exact applyAll_forgivingOr hshelved legible serves h.apart held hp fun hr => (h.moderate hr).1

/-- A value has parts to be met one by one: it is a container, a text or bytes, or it counts as
false and has none. -/
def Iterable (v : Value) : Prop :=
  v.truthy = true → v.layer.isContainer = true ∨ (∃ t, v = .text t) ∨ ∃ b, v = .bytes b

theorem optionalParts_ok_iff {v : Value} : (∃ parts, v.optionalParts = .ok parts) ↔ Iterable v := by
  unfold Iterable Value.optionalParts View.optionalParts
  change (∃ parts, (if v.truthy then v.parts else .ok []) = .ok parts) ↔ _
  split
  · rename_i ht
    refine Iff.trans ?_ (forall_prop_of_true ht).symm
    cases v with
    | scalar a =>
      cases a <;> simp [Value.parts,View.parts,Value.view,Value.layer,Layer.isContainer]
    | list xs => simp [Value.parts,View.parts,Value.view,Value.layer,Layer.isContainer]
    | object es => simp [Value.parts,View.parts,Value.view,Value.layer,Layer.isContainer]
  · rename_i ht
    simp [ht]

/-- Stored mappings can be listed: they have parts, and where they are a text, its reading is not
cut short and gives a document that has parts, or none. -/
structure Listed (stored : Value) : Prop where
  parts : Iterable stored
  text : ∀ s, stored = .text s → Seed.Uncut s ∧ ∀ v, Json.parse s = .ok v → Iterable v

def mappingsIn (v : Value) : Except Fault (List Value) := do
  return ((← v.optionalParts).filter Value.isObject).filter isFunctionMapping

theorem mappingsIn_ok_iff {v : Value} : (∃ ms, mappingsIn v = .ok ms) ↔ Iterable v := by
  rw [← optionalParts_ok_iff]
  unfold mappingsIn
  cases v.optionalParts with
  | error f => simp [bind,Except.bind]
  | ok parts => simp [bind,Except.bind,pure,Except.pure]

theorem mappingsIn_objects {v : Value} {ms : List Value} (h : mappingsIn v = .ok ms) :
    ∀ m ∈ ms, m.isObject = true := by
  unfold mappingsIn at h
  cases hparts : v.optionalParts with
  | error f =>
    rw [hparts] at h
    cases h
  | ok parts =>
    rw [hparts] at h
    cases h
    exact fun m hm => (List.mem_filter.1 (List.mem_filter.1 hm).1).2

theorem functionMappings_text (s : String) :
    functionMappings (.text s) = Payload.documentOr .null s >>= mappingsIn := rfl

theorem functionMappings_of_ne {stored : Value} (h : ∀ s, stored ≠ .text s) :
    functionMappings stored = mappingsIn stored := by
  unfold functionMappings
  split
  · exact absurd rfl (h _)
  · rfl

theorem functionMappings_ok_iff {stored : Value} :
    (∃ ms, functionMappings stored = .ok ms) ↔ Listed stored := by
  by_cases htext : ∃ s, stored = .text s
  · obtain ⟨s,rfl⟩ := htext
    have parts : Iterable (.text s) := fun _ => .inr (.inl ⟨s,rfl⟩)
    have same : (∃ ms, functionMappings (.text s) = .ok ms) ↔
        Seed.Uncut s ∧ ∀ v, Json.parse s = .ok v → Iterable v := by
      rw [functionMappings_text]
      unfold Payload.documentOr Seed.Uncut
      cases Json.parse s with
      | ok v =>
        refine mappingsIn_ok_iff.trans ⟨fun h => ⟨by simp,fun v' hv' => ?_⟩,fun h => h.2 v rfl⟩
        cases hv'
        exact h
      | error f =>
        cases f with
        | complaint c place line column =>
          refine (mappingsIn_ok_iff (v := .null)).trans ⟨fun _ => by simp,fun _ ht => ?_⟩
          cases ht
        | tooDeep => simp [bind,Except.bind]
        | tooManyDigits n => simp [bind,Except.bind]
    refine same.trans ⟨fun h => ⟨parts,fun s' hs' => ?_⟩,fun h => h.text s rfl⟩
    cases hs'
    exact h
  · rw [functionMappings_of_ne (not_exists.1 htext),mappingsIn_ok_iff]
    exact ⟨fun h => ⟨h,fun s hs => absurd ⟨s,hs⟩ htext⟩,Listed.parts⟩

theorem functionMappings_objects {stored : Value} {ms : List Value}
    (h : functionMappings stored = .ok ms) : ∀ m ∈ ms, m.isObject = true := by
  by_cases htext : ∃ s, stored = .text s
  · obtain ⟨s,rfl⟩ := htext
    rw [functionMappings_text] at h
    cases hv : Payload.documentOr .null s with
    | error f =>
      rw [hv] at h
      cases h
    | ok v =>
      rw [hv] at h
      exact mappingsIn_objects h
  · rw [functionMappings_of_ne (not_exists.1 htext)] at h
    exact mappingsIn_objects h

/-- The mappings of a document kind count for a payload; data of the format CSV has no fields, and
neither has a leaf. -/
def Counts (kind : Option DocumentKind) (format : String) (payload stored : Value) : Prop :=
  (∃ k, kind = some k ∧ k.fieldMappings = stored) ∧ format ≠ Payload.csvFormat ∧
    payload.layer.isContainer = true

/-- Stored mappings can be listed, and the keys of those that name a function can be asked. -/
structure Asked (db : Database) (stored : Value) : Prop where
  listed : Listed stored
  keyed : ∀ ms, functionMappings stored = .ok ms → KeysFit db ms

theorem isContainer_item {s : Store} {P : Nat → Prop} (h : Owned.Held P s [o]) :
    s.isContainer o.item = o.tree.layer.isContainer := by
  have hl : Layer.Rel s.Tells (s.layer o.item) o.tree.layer :=
    (Store.tells_mirrors s).layer _ _ (h.tells List.mem_cons_self)
  unfold Store.isContainer
  generalize s.layer o.item = l, o.tree.layer = m at hl
  cases hl <;> rfl

def applyListed (stored : Value) (x : Item) : Work Unit := do
  let mappings ← Work.of (functionMappings stored)
  if mappings.isEmpty then return
  match ← Work.attempt (applyStored mappings x) with
  | .ok _ => return
  | .error f => if f.isHarmless || f.isWorkflowTrouble then return else throw f

theorem payload_eq (k : DocumentKind) (format : String) (x : Item) :
    payload (some k) format x = Work.store >>= fun s =>
      if format == Payload.csvFormat || !s.isContainer x then pure ()
      else applyListed k.fieldMappings x := rfl

theorem asked_iff {db : Database} {stored : Value} :
    Asked db stored ↔ ∃ ms, functionMappings stored = .ok ms ∧ KeysFit db ms := by
  constructor
  · intro h
    obtain ⟨ms,hms⟩ := functionMappings_ok_iff.2 h.listed
    exact ⟨ms,hms,h.keyed ms hms⟩
  · rintro ⟨ms,hms,hk⟩
    refine ⟨functionMappings_ok_iff.1 ⟨ms,hms⟩,fun ms' hms' => ?_⟩
    cases hms.symm.trans hms'
    exact hk

theorem applyListed_ok_iff {stored : Value} (ho : Owned.Held (fun _ => False) w.store [o])
    (hp : o.GuestFree) (h : ∀ ms, functionMappings stored = .ok ms → Evaluable w ms o.tree) :
    (∃ w', (applyListed stored o.item).exec w = (.ok (),w')) ↔ Asked w.db stored := by
  rw [asked_iff]
  unfold applyListed
  cases hms : functionMappings stored with
  | error f =>
    constructor
    · rintro ⟨w',hw⟩
      cases hw
    · rintro ⟨ms,hms,-⟩
      cases hms
  | ok ms =>
    have keyed : (∃ ms', (.ok ms : Except Fault _) = .ok ms' ∧ KeysFit w.db ms') ↔
      KeysFit w.db ms := by
      simp
    rw [keyed,exec_bind_of]
    cases ms with
    | nil => exact ⟨fun _ _ _ m hm => absurd hm List.not_mem_nil,fun _ => ⟨w,rfl⟩⟩
    | cons m ms =>
      simp only [List.isEmpty_cons,Bool.false_eq_true,if_false]
      constructor
      · rintro ⟨w',hw⟩
        -- keys that do not fit stop the payload before anything is passed over
        by_contra hk
        have hfails : (applyStored (m :: ms) o.item).exec w = (.error (.misuse .tooLarge),w) :=
          exec_bind_error (library_fails hk) _
        rw [exec_bind_ok (attempt_of_exec hfails)] at hw
        cases hw
      · intro hk
        obtain ⟨hforgiving,-⟩ :=
          applyStored_forgivingOr hk (functionMappings_objects hms) (h _ hms) ho hp
        rcases hexec : (applyStored (m :: ms) o.item).exec w with ⟨f | n,w'⟩ <;>
          rw [hexec] at hforgiving <;> rw [exec_bind_ok (attempt_of_exec hexec)]
        · have hf : (f.isHarmless || f.isWorkflowTrouble) = true := hforgiving f rfl
          simp only [hf,if_true]
          exact ⟨w',rfl⟩
        · exact ⟨w',rfl⟩

/-- Where what is computed is sound, a payload comes through just if the mappings that count can be
asked. -/
theorem payload_ok_iff {kind : Option DocumentKind} {format : String}
    (ho : Owned.Held (fun _ => False) w.store [o]) (hp : o.GuestFree)
    (h : ∀ stored ms, Counts kind format o.tree stored → functionMappings stored = .ok ms →
      Evaluable w ms o.tree) :
    (∃ w', (payload kind format o.item).exec w = (.ok (),w')) ↔
      ∀ stored, Counts kind format o.tree stored → Asked w.db stored := by
  cases kind with
  | none =>
    refine ⟨fun _ stored hc => ?_,fun _ => ⟨w,rfl⟩⟩
    obtain ⟨⟨k,hk,-⟩,-⟩ := hc
    cases hk
  | some k =>
    have hstore : Work.store.exec w = (.ok w.store,w) := rfl
    have hguard : (format == Payload.csvFormat || !o.tree.layer.isContainer) = false ↔
        format ≠ Payload.csvFormat ∧ o.tree.layer.isContainer = true := by simp
    rw [payload_eq,exec_bind_ok hstore,isContainer_item ho]
    revert hguard
    cases format == Payload.csvFormat || !o.tree.layer.isContainer with
    | false =>
      intro hguard
      have counts : Counts (some k) format o.tree k.fieldMappings := ⟨⟨k,rfl,rfl⟩,hguard.1 rfl⟩
      refine (applyListed_ok_iff ho hp fun ms => h _ ms counts).trans
        ⟨fun ha stored hstored => ?_,fun ha => ha _ counts⟩
      obtain ⟨⟨k',hk,rfl⟩,-⟩ := hstored
      cases hk
      exact ha
    | true =>
      intro hguard
      exact ⟨fun _ _ hstored => absurd (hguard.2 hstored.2) (by decide),fun _ => ⟨w,rfl⟩⟩

end StepGraph.Enrich
