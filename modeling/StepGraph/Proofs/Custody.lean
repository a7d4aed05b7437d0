import StepGraph.Proofs.Executors
import StepGraph.Run.Visit

/-!
Looking after a store while steps work in it. A step names the entries of the context that it may
assign in its configuration, or always assigns the same ones; a path counts by its first place. A
custody says what holds of the items with which a step works, and what is kept of the store; its laws
say that whoever allocates, writes to those items, or assigns entries that are free for it, respects
both. So each step is shown once to respect every custody.
-/
namespace StepGraph

namespace Mapping

def firstPlace (path : Value) : List String :=
  match path with
  | .text p => (Path.places p).head?.toList
  | _ => []

def lastPlace (path : Value) : List String :=
  match path with
  | .text p => (Path.places p).getLast?.toList
  | _ => []

def listed (mappings : Value) : List Value := mappings.optionalParts.toOption.getD []

def responded (mappings : Value) : List String :=
  (listed mappings).flatMap fun m => firstPlace (m.field targetName)

/-- Entries that record mappings assign, at the path or under its last place. -/
def recorded (mappings : Value) : List String :=
  (listed mappings).flatMap fun m =>
    firstPlace (m.field targetName) ++ lastPlace (m.field targetName)

def entryOf (name : Value) : List String := (Edit.keyOf name).toOption.toList

end Mapping

namespace StepKind

open Mapping Steps

/-- Entries of the context that a step of some kind, id and configuration may assign. -/
def assigns (k : StepKind) (id : String) (config : Value) : List String :=
  match k with
  | apiCall | apiEndpoint => responded (config.field "responseDataMappings")
  | conditionalCheck =>
    entryOf ((config.field "storeResultAs").orElse (.text ("condition_" ++ id ++ "_result")))
  | renameFile => FileKind.all.map renamedKey ++ ["renamedFilename","actualFilename"]
  | sftpUpload => ["actualFilename"]
  | emailAction | multipartUpload => []
  | aiDecision => entryOf (DecisionSettings.ofConfig config).outputName ++
    recorded (config.field "responseDataMappings")
  | imaging => imagingKeys.map Prod.snd
  | readEmail => (listed (config.field "emailFieldMappings")).flatMap fun m =>
    entryOf (m.field "fieldName")

end StepKind

end StepGraph

namespace StepGraph

open Attempt Edit Store

/-- A way to look after the store of a run with some context. -/
structure Custody (context : Item) where
  /-- A store in which some items are worked with. -/
  Holds : List Item → Store → Prop
  /-- What a later store has kept of an earlier one. -/
  Kept : Store → Store → Prop
  /-- Entries of the context that may be assigned. -/
  Free : String → Prop
  refl (s : Store) : Kept s s
  trans {s s' s'' : Store} : Kept s s' → Kept s' s'' → Kept s s''
  /-- Fewer items, and leaves. -/
  fewer {live live' : List Item} {s : Store} : Holds live s → (∀ i ∈ live', Among live i) →
    Holds live' s
  grows {live : List Item} {s s' : Store} : Holds live s → s.Grows s' → Kept s s' ∧ Holds live s'
  /-- A change that stays where the items stand; what is found there is worked with as well. -/
  inside {live more : List Item} {s s' : Store} : Holds live s →
    (∀ Q, Stands s.cells.size Q live s → Inside Q s s' ∧ ∀ i ∈ more, i.In (s'.upTo Q)) →
      Kept s s' ∧ Holds (more ++ live) s'
  set {live : List Item} {s : Store} {x : Item} {k : String} : Holds live s → Among live x →
    Free k → Kept s (s.putField context k x) ∧ Holds live (s.putField context k x)
  setPath {live : List Item} {s : Store} {x : Item} {path : String} : Holds live s →
    Among live x → (∀ k ∈ (Path.places path).head?.toList, Free k) →
      Kept s (s.setPath context path x).1 ∧ Holds live (s.setPath context path x).1
  /-- The extracted data may be worked with. -/
  extracted {live : List Item} {s : Store} : Holds live s →
    Holds ((Context.extracted? s context).toList ++ live) s
  extractedFree : Free Context.extractedKey

namespace Custody

variable {σ α β : Type} {c : Item} {C : Custody c} {π : σ → Store} {live : List Item}

/-- A program that respects a custody, over states that have a store. What it names of its result is
worked with afterwards. -/
def Respects (C : Custody c) (π : σ → Store) (live : List Item) (p : Attempt σ α)
    (named : α → List Item) : Prop :=
  ∀ t, C.Holds live (π t) → C.Kept (π t) (π (p.exec t).2) ∧ C.Holds live (π (p.exec t).2) ∧
    ∀ x, (p.exec t).1 = .ok x → C.Holds (named x ++ live) (π (p.exec t).2)

namespace Respects

variable {named : β → List Item} {a : α → List Item}

theorem behind {p : Attempt σ α} {f : α → Attempt σ β} (hp : C.Respects π live p a)
    (hf : ∀ x, (∃ t t', p.exec t = (.ok x,t')) → C.Respects π (a x ++ live) (f x) named) :
    C.Respects π live (p >>= f) named := by
  intro t ht
  obtain ⟨hk,hs,hx⟩ := hp t ht
  rw [exec_bind]
  rcases he : p.exec t with ⟨e | x,t'⟩ <;> rw [he] at hk hs hx
  · exact ⟨hk,hs,fun x hx => by cases hx⟩
  · obtain ⟨hk',hs',hy⟩ := hf x ⟨t,t',he⟩ t' (hx x rfl)
    refine ⟨C.trans hk hk',?_,fun y hy' => ?_⟩
    · exact C.fewer hs' fun i hi => .inl (List.mem_append_right _ hi)
    · refine C.fewer (hy y hy') fun i hi => .inl ?_
      rcases List.mem_append.1 hi with hi | hi
      · exact List.mem_append_left _ hi
      · exact List.mem_append_right _ (List.mem_append_right _ hi)

theorem bind {p : Attempt σ α} {f : α → Attempt σ β} (hp : C.Respects π live p a)
    (hf : ∀ x, C.Respects π (a x ++ live) (f x) named) : C.Respects π live (p >>= f) named :=
  hp.behind fun x _ => hf x

theorem pure {x : β} (h : ∀ i ∈ named x, Among live i) :
    C.Respects π live (Pure.pure x : Attempt σ β) named := by
  refine fun t ht => ⟨C.refl _,ht,?_⟩
  rintro _ ⟨⟩
  refine C.fewer ht fun i hi => ?_
  rcases List.mem_append.1 hi with hi | hi
  · exact h i hi
  · exact .inl hi

theorem closed : Closed (C.Respects π live · fun _ => []) where
  pure x := .pure (by simp)
  bind := .bind

theorem grows {p : Attempt σ α} (h : ∀ t, (π t).Grows (π (p.exec t).2)) :
    C.Respects π live p fun _ => [] := by
  intro t ht
  obtain ⟨hk,hs⟩ := C.grows ht (h t)
  exact ⟨hk,hs,fun _ _ => hs⟩

theorem looks {p : Attempt σ α} (h : ∀ t, π (p.exec t).2 = π t) :
    C.Respects π live p fun _ => [] :=
  grows fun t => by
    rw [h]
    exact refl_of Store.Grows _

theorem fewer {p : Attempt σ β} {names : β → List Item} (h : C.Respects π live p names)
    (hn : ∀ x, ∀ i ∈ named x, i ∈ names x) : C.Respects π live p named := by
  intro t ht
  obtain ⟨hk,hs,hx⟩ := h t ht
  refine ⟨hk,hs,fun x hx' => C.fewer (hx x hx') fun i hi => .inl ?_⟩
  rcases List.mem_append.1 hi with hi | hi
  · exact List.mem_append_left _ (hn x i hi)
  · exact List.mem_append_right _ hi

theorem mapM {ι : Type} {f : ι → Attempt σ β} {js : List ι} (hf : ∀ j ∈ js, ∀ live',
    (∀ i ∈ live, i ∈ live') → C.Respects π live' (f j) named) :
    C.Respects π live (js.mapM f) fun xs => xs.flatMap named := by
  induction js generalizing live with
  | nil => exact .pure (by simp)
  | cons j js ih =>
    obtain ⟨hj,hjs⟩ := List.forall_mem_cons.1 hf
    rw [List.mapM_cons]
    refine (hj live fun _ hi => hi).bind fun x => ?_
    have hrest : C.Respects π (named x ++ live) (js.mapM f) fun xs => xs.flatMap named :=
      ih fun j' hj' live' hlive => hjs j' hj' live' fun i hi =>
        hlive i (List.mem_append_right _ hi)
    refine hrest.bind fun xs => .pure fun i hi => ?_
    rw [List.flatMap_cons] at hi
    rcases List.mem_append.1 hi with hi | hi <;> simp [Among,hi]

theorem caught {p : Attempt σ β} (h : C.Respects π live p fun _ => []) :
    C.Respects π live (Attempt.caught p) fun _ => [] := by
  intro t ht
  obtain ⟨hk,hs,-⟩ := h t ht
  rw [exec_caught]
  exact ⟨hk,hs,fun _ _ => hs⟩

theorem throw (f : Fault) : C.Respects π live (throw f : Attempt σ β) named :=
  fun t ht => ⟨C.refl _,ht,fun x hx => by cases hx⟩

theorem of_bind {r : Except Fault α} {f : α → Attempt σ β}
    (h : ∀ x, r = .ok x → C.Respects π live (f x) named) :
    C.Respects π live (Attempt.of r >>= f) named := by
  cases r with
  | error e => exact throw e
  | ok x => exact h x rfl

end Respects

theorem respects_of_leads {e : Edit β} {named : β → List Item}
    (h : ∀ n Q, Leads n Q live e named) : C.Respects id live e named := by
  intro s hs
  have hstays : ∀ Q, Stands s.cells.size Q live s →
      Inside Q s (e.exec s).2 ∧ ∀ i ∈ ([] : List Item), i.In ((e.exec s).2.upTo Q) :=
    fun Q hQ => ⟨(h _ Q s hQ).1,by simp⟩
  obtain ⟨hk,hh⟩ := C.inside hs hstays
  refine ⟨hk,hh,fun x hx => ?_⟩
  exact (C.inside hs fun Q hQ => (h _ Q s hQ).imp_right fun hy => hy x hx).2

theorem set_respects {x : Item} {k : String} (hx : Among live x) (hk : C.Free k) :
    C.Respects id live (Edit.set c k x) fun _ => [] := by
  intro s hs
  obtain ⟨hkept,hh⟩ := C.set hs hx hk
  exact ⟨hkept,hh,fun _ _ => hh⟩

theorem setPath_respects {x : Item} {path : Value} (hx : Among live x)
    (hp : ∀ k ∈ Mapping.firstPlace path, C.Free k) :
    C.Respects id live (Edit.setPath c path x) fun _ => [] := by
  unfold Edit.setPath
  split
  · rename_i p
    intro s hs
    obtain ⟨hkept,hh⟩ := C.setPath hs hx hp
    exact ⟨hkept,hh,fun _ _ => hh⟩
  · exact .throw _

theorem extracted_bind {k : Store → Edit β} {named : β → List Item}
    (h : ∀ s e, Context.extracted? s c = e → C.Respects id (e.toList ++ live) (k s) named) :
    C.Respects id live (get >>= k) named := by
  intro s hs
  obtain ⟨hkept,hh,hy⟩ := h s _ rfl s (C.extracted hs)
  refine ⟨hkept,?_,fun y hy' => ?_⟩
  · exact C.fewer hh fun i hi => .inl (List.mem_append_right _ hi)
  · refine C.fewer (hy y hy') fun i hi => .inl ?_
    rcases List.mem_append.1 hi with hi | hi
    · exact List.mem_append_left _ hi
    · exact List.mem_append_right _ (List.mem_append_right _ hi)

open Mapping

theorem lookup_respects {root : Item} (hr : Among live root) (path : Value) :
    C.Respects id live (Edit.lookup root path) fun x => [x] :=
  respects_of_leads fun _ _ => Leads.lookup hr path

theorem listed_of_ok {mappings : Value} {ms : List Value} (h : mappings.optionalParts = .ok ms) :
    listed mappings = ms := by
  unfold listed
  rw [h]
  rfl

theorem mem_entryOf {name : Value} {k : String} (h : Edit.keyOf name = .ok k) :
    k ∈ entryOf name := by
  unfold entryOf
  rw [h]
  exact List.mem_singleton_self k

theorem lastPlace_of_setPath {target x : Item} {path : Value} {last : String}
    (h : ∃ s s', (Edit.setPath target path x).exec s = (.ok (some last),s')) :
    last ∈ lastPlace path := by
  obtain ⟨s,s',h⟩ := h
  unfold Edit.setPath at h
  split at h
  · rename_i p
    have hr : (s.setPath target p x).2 = .ok (some last) := congrArg Prod.fst h
    unfold Store.setPath at hr
    simp only at hr
    split at hr
    · have hlast : (Path.places p).getLast? = some last := Except.ok.inj hr
      change last ∈ (Path.places p).getLast?.toList
      rw [hlast]
      exact List.mem_singleton_self last
    · cases hr
  · cases h

theorem respond_respects {response : Item} (hr : Among live response) {m : Value}
    (hm : ∀ k ∈ firstPlace (m.field targetName), C.Free k) (applied : Entries Item) :
    C.Respects id live (respond c response applied m) fun _ => [] := by
  unfold respond
  refine .of_bind fun source _ => ?_
  simp only
  split
  · exact Respects.closed.pure _
  · refine (lookup_respects hr source).bind fun x => ?_
    split
    · exact Respects.closed.pure _
    · refine Respects.closed.bind (Respects.closed.map ?_ _) fun _ => Respects.closed.pure _
      exact setPath_respects (.inl List.mem_cons_self) hm

theorem respondAll_respects {response : Item} (hr : Among live response) {mappings : Value}
    (hm : ∀ k ∈ responded mappings, C.Free k) :
    C.Respects id live (respondAll c response mappings) fun _ => [] := by
  refine .of_bind fun ms hms => ?_
  obtain rfl := listed_of_ok hms
  have all : ∀ m ∈ listed mappings, ∀ k ∈ firstPlace (m.field targetName), C.Free k :=
    fun m hmem k hk => hm k (List.mem_flatMap.2 ⟨m,hmem,hk⟩)
  generalize listed mappings = ms at all
  generalize ([] : Entries Item) = applied
  induction ms generalizing applied with
  | nil => exact Respects.closed.pure _
  | cons m ms ih =>
    obtain ⟨hhead,hrest⟩ := List.forall_mem_cons.1 all
    rw [List.foldlM_cons]
    exact (respond_respects hr hhead applied).bind fun applied => ih hrest applied

theorem storeOutput_respects {x : Item} (hx : Among live x) {name : Value}
    (hn : ∀ k ∈ entryOf name, C.Free k) :
    C.Respects id live (storeOutput c name x) fun _ => [] := by
  unfold storeOutput
  split
  · exact Respects.closed.pure _
  · refine .of_bind fun k hk => ?_
    refine Respects.closed.bind (set_respects hx (hn k (mem_entryOf hk))) fun _ => ?_
    refine extracted_bind fun s e he => ?_
    rw [he]
    cases e with
    | none => exact Respects.closed.pure _
    | some e =>
      refine respects_of_leads fun _ _ => Leads.set List.mem_cons_self ?_ k
      exact hx.mono fun i hi => List.mem_cons_of_mem _ hi

theorem record_respects {source : Item} (hr : Among live source) {m : Value}
    (hm : ∀ k ∈ firstPlace (m.field targetName) ++ lastPlace (m.field targetName), C.Free k) :
    C.Respects id live (record c source m) fun _ => [] := by
  unfold record
  refine .of_bind fun path _ => ?_
  simp only
  split
  · exact Respects.closed.pure _
  · refine (lookup_respects hr path).bind fun x => ?_
    have hfirst (k : String) (hk : k ∈ firstPlace (m.field targetName)) : C.Free k :=
      hm k (List.mem_append_left _ hk)
    refine extracted_bind fun s e he => ?_
    rw [he]
    have hx : Among (e.toList ++ ([x] ++ live)) x := .inl (by simp)
    have hwrite : C.Respects id (e.toList ++ ([x] ++ live))
        (Edit.setPath (e.getD c) (m.field targetName) x) fun _ => [] := by
      cases e with
      | none => exact setPath_respects hx hfirst
      | some e => exact respects_of_leads fun _ _ => Leads.setPath List.mem_cons_self hx _
    refine hwrite.behind fun last hlast => ?_
    cases last with
    | none => exact Respects.closed.pure _
    | some last =>
      exact set_respects hx (hm last (List.mem_append_right _ (lastPlace_of_setPath hlast)))

theorem recordAll_respects {source : Item} (hr : Among live source) {mappings : Value}
    (hm : ∀ k ∈ recorded mappings, C.Free k) :
    C.Respects id live (recordAll c source mappings) fun _ => [] := by
  refine .of_bind fun ms hms => Respects.closed.forM fun m hmem => ?_
  obtain rfl := listed_of_ok hms
  exact record_respects hr fun k hk => hm k (List.mem_flatMap.2 ⟨m,hmem,hk⟩)

theorem ensureExtracted_respects :
    C.Respects id live (Edit.run' fun s => Context.ensureExtracted s c) fun x => [x] := by
  have made : C.Respects id live (Edit.newObject [] >>= fun x =>
      Edit.set c Context.extractedKey x >>= fun _ => pure x) fun x => [x] := by
    refine Respects.bind (respects_of_leads fun _ _ => Leads.newObject (by simp)) fun x => ?_
    refine (set_respects (.inl List.mem_cons_self) C.extractedFree).bind fun _ => .pure ?_
    simp [Among]
  intro s hs
  cases he : Context.extracted? s c with
  | some e =>
    have hx : (Edit.run' fun s => Context.ensureExtracted s c).exec s = (.ok e,s) := by
      change (Except.ok (Context.ensureExtracted s c).2,(Context.ensureExtracted s c).1) = _
      rw [Context.ensureExtracted,he]
    have hall := C.extracted hs
    rw [id_def,he] at hall
    rw [hx]
    refine ⟨C.refl _,hs,?_⟩
    rintro _ ⟨⟩
    exact hall
  | none =>
    have hx : (Edit.run' fun s => Context.ensureExtracted s c).exec s =
        (Edit.newObject [] >>= fun x => Edit.set c Context.extractedKey x >>= fun _ => pure x).exec
          s := by
      change (Except.ok (Context.ensureExtracted s c).2,(Context.ensureExtracted s c).1) = _
      rw [Context.ensureExtracted,he]
      rfl
    rw [hx]
    exact made s hs

variable {named : β → List Item}

abbrev Minds (C : Custody c) (live : List Item) (p : Work α) (named : α → List Item) : Prop :=
  C.Respects World.store live p named

namespace Respects

open Work

theorem edit {e : Edit β} (h : C.Respects id live e named) : C.Minds live (Work.edit e) named :=
  fun w hw => h w.store hw

theorem growsStore {p : Work α} {f : α → Work β} (hp : GrowsStore p)
    (hf : ∀ x, C.Minds live (f x) named) :
    C.Minds live (p >>= f) named :=
  Respects.bind (a := fun _ => []) (Respects.grows hp.grows) hf

theorem appendOnly {p : Work α} {f : α → Work β} (hp : AppendOnly p)
    (hf : ∀ x, C.Minds live (f x) named) :
    C.Minds live (p >>= f) named := growsStore hp.toGrowsStore hf

theorem read {i : Item} {f : Value → Work β}
    (h : ∀ v, (∃ s, C.Holds live s ∧ s.read i = .ok v) → C.Minds live (f v) named) :
    C.Minds live (Work.read i >>= f) named := by
  intro w hw
  have hr : (Work.read i).exec w = (w.store.read i,w) := rfl
  rw [exec_bind,hr]
  rcases hv : w.store.read i with e | v
  · exact ⟨C.refl _,hw,fun x hx => by cases hx⟩
  · exact h v ⟨w.store,hw,hv⟩ w hw

theorem finds {p : Work β} (hp : AppendOnly p)
    (h : ∀ w Q, Stands w.store.cells.size Q live w.store → ∀ x, (p.exec w).1 = .ok x →
      ∀ i ∈ named x, i.In (w.store.upTo Q)) : C.Minds live p named := by
  intro w hw
  obtain ⟨hk,hs⟩ := C.grows hw (hp.grows w)
  refine ⟨hk,hs,fun x hx => ?_⟩
  have hfound := (C.inside hw fun Q hQ => ⟨.refl hQ.region,h w Q hQ x hx⟩).2
  exact (C.grows hfound (hp.grows w)).2

theorem look {found : Store → List Item} {k : Store → Work β}
    (hf : ∀ s Q, Stands s.cells.size Q live s → ∀ i ∈ found s, i.In (s.upTo Q))
    (hk : ∀ s, C.Minds (found s ++ live) (k s) named) : C.Minds live (Work.store >>= k) named := by
  refine Respects.bind (finds .store fun w Q hQ s hs => ?_) hk
  cases hs
  exact hf w.store Q hQ

theorem find {f : Store → Except Fault (List Item)} {k : List Item → Work β}
    (hf : ∀ s Q, Stands s.cells.size Q live s → ∀ is, f s = .ok is → ∀ i ∈ is, i.In (s.upTo Q))
    (hk : ∀ is, C.Minds (is ++ live) (k is) named) :
    C.Minds live (Work.store >>= fun s => Work.of (f s) >>= k) named := by
  rw [← bind_assoc]
  have found : C.Minds live (Work.store >>= fun s => Work.of (f s)) fun is => is :=
    finds (AppendOnly.store.bind fun s => .of _) fun w Q hQ => hf w.store Q hQ
  exact found.bind hk

theorem plant (v : Value) : C.Minds live (Work.plant v) fun x => [x] :=
  edit (respects_of_leads fun _ _ => Leads.plant v)

theorem send (r : HttpRequest) : C.Minds live (Http.send r) fun r => [r.body] := by
  refine appendOnly (.note _) fun _ => appendOnly .reply fun reply => ?_
  cases reply with
  | failure m => exact .throw _
  | answer a =>
    refine appendOnly (.of _) fun v => (plant v).bind fun x => .pure ?_
    simp [Among]

end Respects

def Allows (C : Custody c) (k : StepKind) (n : Step Item) : Prop :=
  ∀ s config, C.Holds [] s → s.read n.config = .ok config →
    ∀ name ∈ k.assigns n.id config, C.Free name

end Custody

namespace Store

variable {as live : List Item} {s s' : Store}

def Apart (as live : List Item) (s : Store) : Prop :=
  ∃ P, (∀ i ∈ as, i.In P) ∧ s.Guarded P live

theorem Apart.symm (h : s.Apart as live) : s.Apart live as := by
  obtain ⟨P,has,hP,Q,hQ,hlive,hd⟩ := h
  exact ⟨Q,hlive,hQ,P,hP,has,fun id hq hp => hd id hp hq⟩

theorem Apart.mono {as' live' : List Item} (h : s.Apart as live) (ha : ∀ i ∈ as', i ∈ as)
    (hl : ∀ i ∈ live', i ∈ live) : s.Apart as' live' := by
  obtain ⟨P,has,hP,Q,hQ,hlive,hd⟩ := h
  exact ⟨P,fun i hi => has i (ha i hi),hP,Q,hQ,fun i hi => hlive i (hl i hi),hd⟩

theorem Guarded.respects {P : Nat → Prop} {is live more : List Item} {s s' : Store}
    (hg : s.Guarded P (live ++ is))
    (h : ∀ Q, Stands s.cells.size Q (live ++ is) s → Inside Q s s' ∧ ∀ i ∈ more, i.In (s'.upTo Q)) :
    s.Agrees P s' ∧ s'.Guarded P ((more ++ live) ++ is) := by
  obtain ⟨hg',ha⟩ := hg.of_inside more fun Q hr hQ hm => h Q ⟨hQ,Nat.le_refl _,hr,hm⟩
  rw [List.append_assoc]
  exact ⟨ha,hg'⟩

theorem Guarded.stays {P : Nat → Prop} {is live : List Item} {s s' : Store}
    (hg : s.Guarded P (live ++ is))
    (h : ∀ Q, Stands s.cells.size Q (live ++ is) s → Inside Q s s') :
    s.Agrees P s' ∧ s'.Guarded P (live ++ is) := by
  have hempty : ∀ Q, Stands s.cells.size Q (live ++ is) s →
      Inside Q s s' ∧ ∀ i ∈ ([] : List Item), i.In (s'.upTo Q) := fun Q hQ => ⟨h Q hQ,by simp⟩
  exact hg.respects hempty

end Store

namespace Custody

/-- Protected containers stay as they are; what is worked with and the context are apart from
them. -/
def protecting (P : Nat → Prop) (c : Item) : Custody c where
  Holds live s := s.Guarded P (live ++ [c])
  Kept s s' := s.Agrees P s'
  Free _ := True
  refl := Store.Agrees.refl P
  trans := @Store.Agrees.trans P
  fewer := by
    rintro live live' s ⟨hP,Q,hQ,hr,hd⟩ h
    refine ⟨hP,Q,hQ,fun i hi => ?_,hd⟩
    rcases List.mem_append.1 hi with hi | hi
    · rcases h i hi with hi | ⟨a,rfl⟩
      · exact hr i (List.mem_append_left _ hi)
      · trivial
    · exact hr i (List.mem_append_right _ hi)
  grows hg h := (h.spares hg).symm
  inside hg h := hg.respects fun Q hQ => h Q
    ⟨hQ.fresh,hQ.size,hQ.region,fun i hi => hQ.mem i (List.mem_append_left _ hi)⟩
  set hg hx _ := by
    refine hg.stays fun Q hQ => ?_
    refine (Leads.set (List.mem_append_right _ List.mem_cons_self) ?_ _ _ hQ).1
    exact hx.mono fun i hi => List.mem_append_left _ hi
  setPath hg hx _ := by
    refine hg.stays fun Q hQ => ?_
    refine (Leads.setPath (List.mem_append_right _ List.mem_cons_self) ?_ (.text _) _ hQ).1
    exact hx.mono fun i hi => List.mem_append_left _ hi
  extracted hg := (hg.respects fun Q hQ =>
    ⟨.refl hQ.region,Leads.extracted (List.mem_append_right _ List.mem_cons_self) hQ⟩).2
  extractedFree := trivial

def separating (as : List Item) (c : Item) : Custody c where
  Holds live s := s.Apart as (live ++ [c])
  Kept _ _ := True
  Free _ := True
  refl _ := trivial
  trans _ _ := trivial
  fewer := fun ⟨P,has,h⟩ hl => ⟨P,has,(protecting P c).fewer h hl⟩
  grows := fun ⟨P,has,h⟩ hg => ⟨trivial,P,has,((protecting P c).grows h hg).2⟩
  inside := fun ⟨P,has,h⟩ hi => ⟨trivial,P,has,((protecting P c).inside h hi).2⟩
  set := fun ⟨P,has,h⟩ hx _ => ⟨trivial,P,has,((protecting P c).set h hx trivial).2⟩
  setPath := fun ⟨P,has,h⟩ hx _ =>
    ⟨trivial,P,has,((protecting P c).setPath h hx fun _ _ => trivial).2⟩
  extracted := fun ⟨P,has,h⟩ => ⟨P,has,(protecting P c).extracted h⟩
  extractedFree := trivial

/-- The same custody, where some documents are worked with throughout. -/
def holding (C : Custody c) (docs : List Item) : Custody c where
  Holds live s := C.Holds (live ++ docs) s
  Kept := C.Kept
  Free := C.Free
  refl := C.refl
  trans := C.trans
  fewer h hl := C.fewer h fun i hi => (List.mem_append.1 hi).elim
    (fun hi => (hl i hi).mono fun _ hj => List.mem_append_left _ hj)
    fun hi => .inl (List.mem_append_right _ hi)
  grows := C.grows
  inside h hi := by
    rw [List.append_assoc]
    exact C.inside h fun Q hQ =>
      hi Q ⟨hQ.fresh,hQ.size,hQ.region,fun i hi => hQ.mem i (List.mem_append_left _ hi)⟩
  set h hx := C.set h (hx.mono fun _ hi => List.mem_append_left _ hi)
  setPath h hx := C.setPath h (hx.mono fun _ hi => List.mem_append_left _ hi)
  extracted h := by
    rw [List.append_assoc]
    exact C.extracted h
  extractedFree := C.extractedFree

def since (C : Custody c) (s₀ : Store) : Custody c where
  Holds live s := C.Holds live s ∧ C.Kept s₀ s
  Kept := C.Kept
  Free := C.Free
  refl := C.refl
  trans := C.trans
  fewer h hl := ⟨C.fewer h.1 hl,h.2⟩
  grows h hg := (C.grows h.1 hg).imp_right fun hh => ⟨hh,C.trans h.2 (C.grows h.1 hg).1⟩
  inside h hi := (C.inside h.1 hi).imp_right fun hh => ⟨hh,C.trans h.2 (C.inside h.1 hi).1⟩
  set h hx hk := (C.set h.1 hx hk).imp_right fun hh => ⟨hh,C.trans h.2 (C.set h.1 hx hk).1⟩
  setPath h hx hp :=
    (C.setPath h.1 hx hp).imp_right fun hh => ⟨hh,C.trans h.2 (C.setPath h.1 hx hp).1⟩
  extracted h := ⟨C.extracted h.1,h.2⟩
  extractedFree := C.extractedFree

variable {σ α : Type} {c : Item} {C : Custody c} {π : σ → Store} {live : List Item}

theorem Respects.holding {docs : List Item} {p : Attempt σ α} {named : α → List Item}
    (h : C.Respects π (live ++ docs) p named) : (C.holding docs).Respects π live p named := by
  intro t ht
  obtain ⟨hk,hs,hx⟩ := h t ht
  refine ⟨hk,hs,fun x hx' => ?_⟩
  change C.Holds ((named x ++ live) ++ docs) _
  rw [List.append_assoc]
  exact hx x hx'

theorem Respects.since {s₀ : Store} {p : Attempt σ α} {named : α → List Item}
    (h : C.Respects π live p named) : (C.since s₀).Respects π live p named := by
  rintro t ⟨ht,hk₀⟩
  obtain ⟨hk,hs,hx⟩ := h t ht
  have hkept := C.trans hk₀ hk
  exact ⟨hk,⟨hs,hkept⟩,fun x hx' => ⟨hx x hx',hkept⟩⟩

end Custody

end StepGraph
