import StepGraph.Proofs.Choice
import StepGraph.Proofs.Course
import StepGraph.Proofs.Reach

/-!
Parts of a response that are copied into the context. What is copied is shared with the response, so
a later mapping can write into it. While no write meets a container that the response leads to, the
response stays what was received, and each mapping writes the part that the received document has.
-/
namespace StepGraph

open Attempt Work

theorem View.field_of_member {α : Type} {v : View α} {x y : α} {k : String}
    (h : v.member x k = .ok y) : v.field x k = y := by
  unfold View.member at h
  unfold View.field View.child?
  split at h
  · exact Except.ok.inj h
  · cases h

namespace Store

variable {s s' : Store} {n : Nat} {v : Value} {i : Item}

theorem reached_spells (h : s.Spells n v i) (path : Value) :
    s.Spells n (v.lookupPath path) (s.reached i path) := by
  cases path with
  | list xs => exact .leaf n .null
  | object es => exact .leaf n .null
  | scalar a =>
    cases a with
    | text p =>
      have hl := (s.spells_mirrors n).toMirrors.lookup h p
      change s.Spells n (.ofOption (Path.lookup Value.access.toView v p))
        (.ofOption (Path.lookup s.access.toView i p))
      generalize Path.lookup s.access.toView i p = o, Path.lookup Value.access.toView v p = q at hl
      cases hl with
      | none => exact .leaf n .null
      | some hx => exact hx
    | _ => exact .leaf n .null

theorem in_reached {P : Nat → Prop} (hP : s.Encloses P) (hi : i.In P) (path : Value) :
    (s.reached i path).In P := by
  cases path with
  | list xs => trivial
  | object es => trivial
  | scalar a =>
    cases a with
    | text p => exact .ofOption fun _ hx => hP.hereditary.lookup hi hx
    | _ => trivial

theorem Spells.isNull (h : s.Spells n v i) : i.isNull = v.isNull := by
  cases h with
  | leaf n a => cases a <;> rfl
  | list => rfl
  | object => rfl

end Store

namespace Mapping

variable {s s' s'' : Store} {c r x : Item} {m body : Value} {ms : List Value}
  {xs : List (String × Item)} {n : Nat}

/-- What a mapping copies, and the path where it goes: nothing where one of the paths is missing or
there is no such part. -/
def part? {α : Type} (look : Value → α) (isNull : α → Bool) (m : Value) : Option (String × α) :=
  match m.field targetName with
  | .text p =>
    let x := look (m.field sourceName)
    if (m.field sourceName).truthy && (Value.text p).truthy && !isNull x then some (p,x) else none
  | _ => none

def received? (body m : Value) : Option (String × Value) := part? body.lookupPath Value.isNull m

def shared? (s : Store) (r : Item) (m : Value) : Option (String × Item) :=
  part? (s.reached r) Item.isNull m

theorem target_of_part {α : Type} {look : Value → α} {isNull : α → Bool} {p : String} {y : α}
    (h : part? look isNull m = some (p,y)) : m.field targetName = .text p := by
  unfold part? at h
  split at h
  · rename_i q hq
    simp only at h
    split at h <;> cases h
    exact hq
  · cases h

theorem shared?_rel (h : s.Spells n body r) (m : Value) :
    Option.Rel (fun a b => a.1 = b.1 ∧ s.Spells n b.2 a.2) (shared? s r m) (received? body m) := by
  have hx := s.reached_spells h (m.field sourceName)
  unfold shared? received? part?
  split
  · simp only [hx.isNull]
    split
    · exact .some ⟨rfl,hx⟩
    · exact .none
  · exact .none

theorem in_shared {P : Nat → Prop} (hP : s.Encloses P) (hr : r.In P) {p : String}
    (h : shared? s r m = some (p,x)) : x.In P := by
  unfold shared? part? at h
  split at h
  · simp only at h
    split at h <;> cases h
    exact s.in_reached hP hr _
  · cases h

/-- Mappings that are followed in turn, and the writes that they make. -/
inductive Copies (c r : Item) : List Value → List (String × Item) → Store → Store → Prop
  | nil (s : Store) : Copies c r [] [] s s
  | pass {m : Value} {ms : List Value} {xs : List (String × Item)} {s s' : Store}
      (none : shared? s r m = none) (behind : Copies c r ms xs s s') : Copies c r (m :: ms) xs s s'
  | write {m : Value} {ms : List Value} {p : String} {x : Item} {xs : List (String × Item)}
      {last : Option String} {s s' s'' : Store} (part : shared? s r m = some (p,x))
      (written : s.setPath c p x = (s',.ok last)) (behind : Copies c r ms xs s' s'') :
      Copies c r (m :: ms) ((p,x) :: xs) s s''

theorem respond_ok {done applied : Entries Item}
    (h : (respond c r done m).exec s = (.ok applied,s')) :
    (shared? s r m = none ∧ s' = s) ∨
      ∃ p x last, shared? s r m = some (p,x) ∧ s.setPath c p x = (s',.ok last) := by
  unfold respond at h
  obtain ⟨source,s₁,hsource,h⟩ := exec_bind_eq_ok h
  obtain ⟨hmember,rfl⟩ := Prod.mk.inj hsource
  have hfield : m.field sourceName = source := View.field_of_member hmember
  simp only at h
  split at h
  · rename_i hgiven
    cases h
    refine .inl ⟨?_,rfl⟩
    unfold shared? part?
    rw [hfield]
    split
    · rename_i p hp
      rw [hp] at hgiven
      refine if_neg fun hall => ?_
      simp only [Bool.and_eq_true] at hall
      simp [hall.1.1,hall.1.2] at hgiven
    · rfl
  · rename_i hgiven
    obtain ⟨y,s₂,hy,h⟩ := exec_bind_eq_ok h
    rw [Edit.exec_lookup] at hy
    cases hy
    split at h
    · rename_i hnull
      cases h
      refine .inl ⟨?_,rfl⟩
      unfold shared? part?
      rw [hfield]
      split <;> simp [hnull]
    · rename_i hnull
      obtain ⟨⟨⟩,s₃,hset,h⟩ := exec_bind_eq_ok h
      cases h
      rw [exec_discard] at hset
      -- a path that is no text is refused
      unfold Edit.setPath at hset
      split at hset
      · rename_i p hp
        obtain ⟨hmap,hs'⟩ := Prod.mk.inj hset
        obtain ⟨last,hlast⟩ : ∃ last, (s.setPath c p (s.reached r source)).2 = .ok last := by
          change (s.setPath c p (s.reached r source)).2.map _ = .ok _ at hmap
          cases hl : (s.setPath c p (s.reached r source)).2 with
          | error f =>
            rw [hl] at hmap
            cases hmap
          | ok last => exact ⟨last,rfl⟩
        refine .inr ⟨p,s.reached r source,last,?_,Prod.ext hs' hlast⟩
        unfold shared? part?
        rw [hfield,hp]
        rw [hp] at hgiven
        simp only [Bool.or_eq_true,Bool.not_eq_true',not_or,Bool.not_eq_false] at hgiven
        simp [hgiven.1,hgiven.2,hnull]
      · cases hset

theorem respondAll_copies {mappings : Value} {applied : Entries Item}
    (h : (respondAll c r mappings).exec s = (.ok applied,s')) :
    ∃ ms xs, mappings.optionalParts = .ok ms ∧ Copies c r ms xs s s' := by
  have inTurn (ms : List Value) (done : Entries Item) (s : Store)
      (h : (ms.foldlM (respond c r) done).exec s = (.ok applied,s')) :
      ∃ xs, Copies c r ms xs s s' := by
    induction ms generalizing done s with
    | nil =>
      cases h
      exact ⟨[],.nil _⟩
    | cons m ms ih =>
      rw [List.foldlM_cons] at h
      obtain ⟨next,s₁,hfirst,h⟩ := exec_bind_eq_ok h
      obtain ⟨xs,hxs⟩ := ih next s₁ h
      rcases respond_ok hfirst with ⟨hnone,rfl⟩ | ⟨p,x,last,hpart,hset⟩
      · exact ⟨xs,.pass hnone hxs⟩
      · exact ⟨(p,x) :: xs,.write hpart hset hxs⟩
  obtain ⟨ms,s₁,hms,h⟩ := exec_bind_eq_ok h
  obtain ⟨hparts,hs⟩ := Prod.mk.inj hms
  obtain ⟨xs,hxs⟩ := inTurn ms [] s₁ h
  rw [← show s = s₁ from hs] at hxs
  exact ⟨ms,xs,hparts,hxs⟩

/-- No write meets a container that the response leads to when its turn comes. -/
def WritesClearOf (c r : Item) : List (String × Item) → Store → Prop
  | [], _ => True
  | (p,x) :: xs, s =>
    (∀ id, s.meets? c (Path.places p) = some id → ¬s.Reaches r id) ∧
      WritesClearOf c r xs (s.writeAt c (Path.places p) x).1

theorem stays_behind_write {p : String} {last : Option String} (hr : s.Spells n body r)
    (hn : n ≤ s.cells.size) (hset : s.setPath c p x = (s',.ok last))
    (hmeets : ∀ id, s.meets? c (Path.places p) = some id → ¬s.Reaches r id) :
    s.Agrees (s.Reaches r) s' ∧ s'.Spells n body r ∧ n ≤ s'.cells.size := by
  have hw := Store.writeAt_of_setPath (congrArg Prod.snd hset)
  rw [congrArg Prod.fst hset] at hw
  have hstays := Store.agrees_writeAt (x := x) hr hn hmeets
  have hsize := (Store.writeAt_meets (Path.places p) s c x).1
  rw [hw] at hstays hsize
  exact ⟨hstays,hr.of_reaches hstays,Nat.le_trans hn hsize⟩

theorem writeAt_eq {p : String} {last : Option String} (hset : s.setPath c p x = (s',.ok last)) :
    (s.writeAt c (Path.places p) x).1 = s' := by
  rw [Store.writeAt_of_setPath (congrArg Prod.snd hset),hset]

theorem received_of_shared (hr : s.Spells n body r) {p : String}
    (hpart : shared? s r m = some (p,x)) :
    ∃ v, received? body m = some (p,v) ∧ s.Spells n v x := by
  have hrel := shared?_rel hr m
  rw [hpart] at hrel
  generalize received? body m = part at hrel
  cases hrel with
  | @some _ part hx => exact ⟨part.2,by rw [show p = part.1 from hx.1],hx.2⟩

theorem received_eq_none (hr : s.Spells n body r) (hpart : shared? s r m = none) :
    received? body m = none := by
  have hrel := shared?_rel hr m
  rw [hpart] at hrel
  generalize received? body m = part at hrel
  cases hrel
  rfl

theorem Copies.keeps (h : Copies c r ms xs s s') (hr : s.Spells n body r)
    (hn : n ≤ s.cells.size) (hb : WritesClearOf c r xs s) :
    s.Agrees (s.Reaches r) s' ∧
      List.Forall₂ (fun x v => x.1 = v.1 ∧ s'.Spells n v.2 x.2) xs
        (ms.filterMap (received? body)) := by
  induction h with
  | nil s => exact ⟨.refl _ _,.nil⟩
  | pass hnone _ ih =>
    rw [List.filterMap_cons_none (received_eq_none hr hnone)]
    exact ih hr hn hb
  | @write m ms p x xs last s s' s'' hpart hset _ ih =>
    obtain ⟨hmeets,hbehind⟩ := hb
    rw [writeAt_eq hset] at hbehind
    obtain ⟨hstays,hr',hn'⟩ := stays_behind_write hr hn hset hmeets
    obtain ⟨ha,hall⟩ := ih hr' hn' hbehind
    have hboth : s.Agrees (s.Reaches r) s'' :=
      hstays.trans (ha.mono fun id hid => (Store.reaches_iff hstays).2 hid)
    obtain ⟨v,hv,hx⟩ := received_of_shared hr hpart
    rw [List.filterMap_cons_some hv]
    -- what was written is a part of the response, and so it stayed
    refine ⟨hboth,.cons ⟨rfl,(s.encloses_reaches r).spells hboth ?_ hx⟩ hall⟩
    exact in_shared (s.encloses_reaches r) (s.in_reaches r) hpart

/-- Behind a mapping that copies a container, none goes below the context's own entries. -/
def ShallowBehindCopy (body : Value) (ms : List Value) : Prop :=
  ms.Pairwise fun m later => ∀ p v q w, received? body m = some (p,v) →
    v.layer.isContainer = true → received? body later = some (q,w) → (Path.places q).length ≤ 1

theorem meets?_single {parts : List String} {id : Nat} (h : parts.length ≤ 1)
    (hid : s.meets? c parts = some id) : c.id? = some id := by
  cases parts with
  | nil => cases hid
  | cons part rest =>
    cases rest with
    | nil => exact hid
    | cons next rest => simp at h

theorem Copies.writesClearOf_single (h : Copies c r ms xs s s') (hr : s.Spells n body r)
    (hn : n ≤ s.cells.size) (hc : ∀ id, c.id? = some id → ¬s.Reaches r id)
    (hsingle : ∀ m ∈ ms, ∀ q w, received? body m = some (q,w) → (Path.places q).length ≤ 1) :
    WritesClearOf c r xs s := by
  induction h with
  | nil s => trivial
  | pass _ _ ih => exact ih hr hn hc (List.forall_mem_cons.1 hsingle).2
  | @write m ms p x xs last s s' s'' hpart hset _ ih =>
    obtain ⟨hfirst,hrest⟩ := List.forall_mem_cons.1 hsingle
    obtain ⟨v,hv,-⟩ := received_of_shared hr hpart
    have hmeets id (hid : s.meets? c (Path.places p) = some id) : ¬s.Reaches r id :=
      hc id (meets?_single (hfirst p v hv) hid)
    obtain ⟨hstays,hr',hn'⟩ := stays_behind_write hr hn hset hmeets
    refine ⟨hmeets,?_⟩
    rw [writeAt_eq hset]
    refine ih hr' hn' (fun id hid => ?_) hrest
    rw [Store.reaches_iff hstays]
    exact hc id hid

/-- The context stands in containers of its own, none of which belongs to the response. -/
def ContextApart (s : Store) (c r : Item) : Prop :=
  ∃ Q, s.Region Q ∧ c.In Q ∧ ∀ id, Q id → ¬s.Reaches r id

theorem ContextApart.not_reaches (h : ContextApart s c r) (id : Nat) (hid : c.id? = some id) :
    ¬s.Reaches r id := by
  obtain ⟨Q,-,hc,hQ⟩ := h
  cases c with
  | leaf a => cases hid
  | cell k =>
    cases hid
    exact hQ _ hc

theorem ContextApart.not_meets (h : ContextApart s c r) {parts : List String} (id : Nat)
    (hid : s.meets? c parts = some id) : ¬s.Reaches r id := by
  obtain ⟨Q,hregion,hc,hQ⟩ := h
  exact hQ id (hregion.encloses.meets parts hc hid)

theorem ContextApart.write (h : ContextApart s c r) {p : String} {last : Option String} {a : Scalar}
    (hr : s.Spells n body r) (hn : n ≤ s.cells.size)
    (hset : s.setPath c p (.leaf a) = (s',.ok last)) : ContextApart s' c r := by
  obtain ⟨hstays,-,-⟩ := stays_behind_write hr hn hset fun id hid => h.not_meets id hid
  obtain ⟨Q,hregion,hc,hQ⟩ := h
  have hinside := Store.writeAt_inside (x := .leaf a) (Path.places p) (fun id hid => .inr hid)
    hregion.withNew (hregion.mem_withNew hc) trivial
  rw [writeAt_eq hset] at hinside
  refine ⟨_,hinside.region,hinside.mem (hregion.mem_withNew hc),fun id hid => ?_⟩
  rw [Store.reaches_iff hstays]
  intro hreach
  rcases hid.1 with hq | hnew
  · exact hQ id hq hreach
  · exact Nat.not_lt.2 (Nat.le_trans hn hnew) (hr.reaches_lt hreach)

theorem Copies.beside (h : Copies c r ms xs s s') (hr : s.Spells n body r)
    (hn : n ≤ s.cells.size) (hc : ContextApart s c r) (hshallow : ShallowBehindCopy body ms) :
    WritesClearOf c r xs s := by
  induction h with
  | nil s => trivial
  | pass _ _ ih => exact ih hr hn hc (List.pairwise_cons.1 hshallow).2
  | @write m ms p x xs last s s' s'' hpart hset hbehind ih =>
    obtain ⟨hfirst,hrest⟩ := List.pairwise_cons.1 hshallow
    obtain ⟨v,hv,hx⟩ := received_of_shared hr hpart
    obtain ⟨hstays,hr',hn'⟩ := stays_behind_write hr hn hset fun id hid => hc.not_meets id hid
    refine ⟨fun id hid => hc.not_meets id hid,?_⟩
    rw [writeAt_eq hset]
    cases x with
    | leaf a => exact ih hr' hn' (hc.write hr hn hset) hrest
    | cell k =>
      have hcontainer : v.layer.isContainer = true := by cases hx <;> rfl
      refine hbehind.writesClearOf_single hr' hn' (fun id hid => ?_) fun later hlater q w hw =>
        hfirst later hlater p v q w hv hcontainer hw
      rw [Store.reaches_iff hstays]
      exact hc.not_reaches id hid

end Mapping

/-- The response in a step's output: the output itself, or the field that shows what was answered. -/
def StepKind.shownResponse (s : Store) (o : Outcome) : StepKind → Item
  | .apiEndpoint => s.field o.output "responseData"
  | _ => o.output

namespace Steps

variable {run : Run} {node : Step Item} {config body : Value} {w w' : World} {o : Outcome}

theorem fetch_ok {request : HttpRequest} {r : Response}
    (h : (fetch request).exec w = (.ok r,w')) :
    Exchanged request w r w' ∧
      ∃ body, answered? w = some body ∧ w'.store.Spells w'.store.cells.size body r.body := by
  obtain ⟨answer,w₁,hsend,h⟩ := exec_bind_eq_ok h
  have hsent := send_ok hsend
  split at h
  · rename_i hsuccess
    cases h
    exact ⟨hsent,hsent.body hsuccess⟩
  · obtain ⟨f,w₂,-,h⟩ := exec_bind_eq_ok h
    cases h

theorem applyMappings_ok {r : Item}
    (h : (applyMappings run config r).exec w = (.ok ⟨⟩,w')) :
    ∃ ms xs, (config.field "responseDataMappings").optionalParts = .ok ms ∧
      Mapping.Copies run.context r ms xs w.store w'.store := by
  unfold applyMappings at h
  rw [exec_discard] at h
  obtain ⟨hok,hw⟩ := Prod.mk.inj h
  rcases he : (Mapping.respondAll run.context r (config.field "responseDataMappings")).exec w.store
    with ⟨f | applied,s⟩
  · rw [show (Work.edit _).exec w = (.error f,{ w with store := s }) from
      congrArg (fun e => (e.1,{ w with store := e.2 })) he] at hok
    cases hok
  · obtain ⟨ms,xs,hms,hcopies⟩ := Mapping.respondAll_copies he
    have hs : w'.store = s := by
      rw [← hw]
      exact congrArg Prod.snd he
    rw [hs]
    exact ⟨ms,xs,hms,hcopies⟩

theorem entry_onward (run : Run) (k : String) : Keeps Onward (run.entry k) :=
  (Alone.store.bind fun _ => Alone.closed.pure _).onward
    (entry_readOnly run k).appendOnly.toGrowsStore

/-- What a step leaves that copies parts of the answer to its request: the document of the answer
in new containers, and the writes of the mappings behind it. -/
structure Copied (run : Run) (node : Step Item) (w : World) (o : Outcome) (w' : World)
    (config body : Value) (ms : List Value) (xs : List (String × Item)) (s₀ s₁ : Store) : Prop where
  configured : w.store.read node.config = .ok config
  answered : answered? w = some body
  grows : w.store.Grows s₀
  spells : s₀.Spells s₀.cells.size body o.response
  new : ∀ id, s₀.Reaches o.response id → w.store.cells.size ≤ id
  mappings : (config.field "responseDataMappings").optionalParts = .ok ms
  copies : Mapping.Copies run.context o.response ms xs s₀ s₁
  goesOn : s₁.Grows w'.store

theorem copied_of_fetch {request : HttpRequest} {r : Response} {w₁ w₂ w₃ : World}
    (hconfig : w.store.read node.config = .ok config) (hahead : Onward w w₁)
    (hfetch : (fetch request).exec w₁ = (.ok r,w₂))
    (hcopy : (applyMappings run config r.body).exec w₂ = (.ok ⟨⟩,w₃)) (hbehind : Onward w₃ w')
    (ho : o.response = r.body) :
    ∃ config body ms xs s₀ s₁, Copied run node w o w' config body ms xs s₀ s₁ := by
  obtain ⟨hsent,body,hbody,hspells⟩ := fetch_ok hfetch
  obtain ⟨ms,xs,hms,hcopies⟩ := applyMappings_ok hcopy
  rw [← ho] at hspells hcopies
  refine ⟨config,body,ms,xs,w₂.store,w₃.store,?_⟩
  constructor
  case configured => exact hconfig
  case answered => exact (answered?_eq hahead.1) ▸ hbody
  case grows => exact trans_of Store.Grows hahead.2 hsent.grows
  case spells => exact hspells
  case new =>
    intro id hid
    obtain ⟨P,hP,hr,hnew⟩ := hsent.apart
    exact Nat.le_trans hahead.2.size_le (hnew id (hP.encloses.reaches (ho ▸ hr) hid))
  case mappings => exact hms
  case copies => exact hcopies
  case goesOn => exact hbehind.2

theorem apiCall_copies (h : (apiCall run node).exec w = (.ok o,w')) :
    StepKind.apiCall.shownResponse w'.store o = o.response ∧
      ∃ config body ms xs s₀ s₁, Copied run node w o w' config body ms xs s₀ s₁ := by
  obtain ⟨config,w₀,hread,h⟩ := exec_bind_eq_ok h
  obtain ⟨hconfig,rfl⟩ := Prod.mk.inj hread
  obtain ⟨scope,w₁,hw,h⟩ := (Onward.scope _).ahead h
  obtain ⟨⟨⟩,w₂,hw,h⟩ := requireHttp_onward.further hw h
  obtain ⟨method,w₃,hw,h⟩ := (Onward.of _).further hw h
  obtain ⟨url,w₄,hw,h⟩ := (Onward.of _).further hw h
  obtain ⟨headers,w₅,hw,h⟩ := (Onward.of _).further hw h
  obtain ⟨sent,w₆,hw,h⟩ := (Onward.of _).further hw h
  obtain ⟨extracted,w₇,hw,h⟩ := (entry_onward run _).further hw h
  obtain ⟨input,w₈,hw,h⟩ := (Onward.newObject _).further hw h
  obtain ⟨r,w₉,hfetch,h⟩ := exec_bind_eq_ok h
  obtain ⟨⟨⟩,w₁₀,hcopy,h⟩ := exec_bind_eq_ok h
  cases h
  exact ⟨rfl,copied_of_fetch hconfig hw hfetch hcopy (refl_of Onward _) rfl⟩

theorem apiEndpoint_copies (h : (apiEndpoint run node).exec w = (.ok o,w')) :
    StepKind.apiEndpoint.shownResponse w'.store o = o.response ∧
      ∃ config body ms xs s₀ s₁, Copied run node w o w' config body ms xs s₀ s₁ := by
  obtain ⟨config,w₀,hread,h⟩ := exec_bind_eq_ok h
  obtain ⟨hconfig,rfl⟩ := Prod.mk.inj hread
  obtain ⟨scope,w₁,hw,h⟩ := (Onward.scope _).ahead h
  obtain ⟨⟨⟩,w₂,hw,h⟩ := requireHttp_onward.further hw h
  obtain ⟨p,w₃,hw,h⟩ := (profileOf_onward config "main").further hw h
  -- a profile without an address is refused
  split at h
  · obtain ⟨source,w₄,-,h⟩ := exec_bind_eq_ok h
    obtain ⟨⟨⟩,w₅,hthrow,-⟩ := exec_bind_eq_ok h
    cases hthrow
  obtain ⟨method,w₄,hw,h⟩ := (Onward.of _).further hw h
  obtain ⟨url,w₅,hw,h⟩ := (Onward.of _).further hw h
  extract_lets send at h
  obtain ⟨content,w₆,hw,h⟩ : ∃ content w₆, Onward w w₆ ∧ (send content).exec w₆ = (.ok o,w') := by
    split at h
    · exact ⟨none,w₅,hw,h⟩
    · exact (Onward.of _).further hw h
  obtain ⟨r,w₇,hfetch,h⟩ := exec_bind_eq_ok h
  obtain ⟨⟨⟩,w₈,hcopy,h⟩ := exec_bind_eq_ok h
  obtain ⟨output,w₉,hnew,h⟩ := exec_bind_eq_ok h
  cases hnew
  cases h
  refine ⟨?_,copied_of_fetch hconfig hw hfetch hcopy (Onward.newObject _ w₈) rfl⟩
  exact (Store.field_of_layer (w₈.store.alloc_layer _).2.1 _).trans rfl

/-- Where the mappings write beside the response, it is read as what was answered, and what each has
written is read as what the answered document has at its path. -/
theorem Copied.keeps {ms : List Value} {xs : List (String × Item)} {s₀ s₁ : Store}
    (h : Copied run node w o w' config body ms xs s₀ s₁)
    (hb : Mapping.WritesClearOf run.context o.response xs s₀) :
    w'.store.read o.response = .ok body ∧
      List.Forall₂ (fun x v => x.1 = v.1 ∧ w'.store.read x.2 = .ok v.2) xs
        (ms.filterMap (Mapping.received? body)) := by
  obtain ⟨ha,hall⟩ := h.copies.keeps h.spells (Nat.le_refl _) hb
  refine ⟨((h.spells.of_reaches ha).grows h.goesOn).read,hall.imp fun x v hx => ?_⟩
  exact ⟨hx.1,(hx.2.grows h.goesOn).read⟩

theorem Copied.beside {ms : List Value} {xs : List (String × Item)} {s₀ s₁ : Store}
    (h : Copied run node w o w' config body ms xs s₀ s₁) {Q : Nat → Prop} (hQ : w.store.Region Q)
    (hc : run.context.In Q) (hshallow : Mapping.ShallowBehindCopy body ms) :
    Mapping.WritesClearOf run.context o.response xs s₀ := by
  refine h.copies.beside h.spells (Nat.le_refl _) ⟨Q,hQ.of_agrees (hQ.agrees h.grows),hc,?_⟩ hshallow
  exact fun id hid hreach => Nat.not_lt.2 (h.new id hreach) (hQ.bounded id hid)

end Steps

/-- A step that calls an API keeps the answered document where its mappings write beside it, and each
mapping then writes the part of that document that it names. So it is for all mappings behind which
none goes below the context's own entries once a container was copied. -/
theorem Visit.perform_keepsAnswer {node : Step Item} {k : StepKind} {t t' : Trip} {o : Outcome}
    (hk : node.kind? = some k) (hcalls : k = .apiCall ∨ k = .apiEndpoint)
    (h : (Visit.perform node).exec t = (.ok o,t')) :
    t'.run.last = o.response ∧ k.shownResponse t'.world.store o = o.response ∧
      ∃ config body ms xs s₀ s₁,
        Steps.Copied t.run node t.world o t'.world config body ms xs s₀ s₁ ∧
        (Mapping.WritesClearOf t.run.context o.response xs s₀ →
          t'.world.store.read o.response = .ok body ∧
          List.Forall₂ (fun x v => x.1 = v.1 ∧ t'.world.store.read x.2 = .ok v.2) xs
            (ms.filterMap (Mapping.received? body))) ∧
        ((∃ Q, t.world.store.Region Q ∧ t.run.context.In Q) → Mapping.ShallowBehindCopy body ms →
          Mapping.WritesClearOf t.run.context o.response xs s₀) := by
  have ended : ∃ w', (k.perform t.run node).exec t.world = (.ok o,w') ∧
      t' = ⟨w',{ t.run with last := o.response }⟩ := by
    rw [Visit.perform_known hk] at h
    rcases hp : (k.perform t.run node).exec t.world with ⟨f | o',w'⟩ <;> rw [hp] at h <;> cases h
    refine ⟨w',rfl,?_⟩
    rcases hcalls with rfl | rfl <;> rfl
  obtain ⟨w',hp,rfl⟩ := ended
  have copied : k.shownResponse w'.store o = o.response ∧
      ∃ config body ms xs s₀ s₁, Steps.Copied t.run node t.world o w' config body ms xs s₀ s₁ := by
    rcases hcalls with rfl | rfl
    · exact Steps.apiCall_copies hp
    · exact Steps.apiEndpoint_copies hp
  obtain ⟨hshown,config,body,ms,xs,s₀,s₁,hcopied⟩ := copied
  refine ⟨rfl,hshown,config,body,ms,xs,s₀,s₁,hcopied,hcopied.keeps,?_⟩
  exact fun ⟨Q,hQ,hc⟩ hshallow => hcopied.beside hQ hc hshallow

def Mapping.of (source target : String) : Value :=
  .object [(sourceName,.text source),(targetName,.text target)]

def mappedCall : Step Item := { id := "c", type := "api_call", config := .cell 4 }

def answeredOrder : World where
  store := ⟨#[.object [],
    .object [("responsePath",.text "id"),("updatePath",.text "order.id")],
    .object [("responsePath",.text "order"),("updatePath",.text "order")],
    .list [.cell 1,.cell 2],
    .object [("url",.text "http://h/o"),("responseDataMappings",.cell 3)]]⟩
  http := { replies := [.answer
    { status := 200, reason := "OK", text := "\x7b\"order\": \x7b\x7d, \"id\": 7\x7d" }] }

theorem Visit.perform_keepsAnswer_order :
    ∃ (o : Outcome) (t' : Trip) (body : Value) (xs : List (String × Item)),
      (Visit.perform mappedCall).exec ⟨answeredOrder,{ context := .cell 0 }⟩ = (.ok o,t') ∧
      answered? answeredOrder = some body ∧ t'.run.last = o.response ∧ o.output = o.response ∧
      t'.world.store.read o.response = .ok body ∧ xs.map Prod.fst = ["order.id","order"] ∧
      List.Forall₂ (fun x v => x.1 = v.1 ∧ t'.world.store.read x.2 = .ok v.2) xs
        ([Mapping.of "id" "order.id",Mapping.of "order" "order"].filterMap
          (Mapping.received? body)) := by
  have hok : ((Visit.perform mappedCall).exec
      ⟨answeredOrder,{ context := .cell 0 }⟩).1.isOk = true := by decide +kernel
  rcases h : (Visit.perform mappedCall).exec ⟨answeredOrder,{ context := .cell 0 }⟩
    with ⟨f | o,t'⟩ <;> rw [h] at hok
  · cases hok
  obtain ⟨hlast,hshown,config,body,ms,xs,s₀,s₁,hcopied,hkeeps,hshallow⟩ :=
    perform_keepsAnswer (k := .apiCall) rfl (.inl rfl) h
  have hconfig : answeredOrder.store.Spells 5 (.object [("url",.text "http://h/o"),
      ("responseDataMappings",.list [Mapping.of "id" "order.id",Mapping.of "order" "order"])])
      mappedCall.config := by
    have mapping {id : Nat} {source target : String} (hlt : id < 3)
        (hcell : answeredOrder.store.cells[id]? =
          some (.object [("responsePath",.text source),("updatePath",.text target)])) :
        answeredOrder.store.Spells 3 (Mapping.of source target) (.cell id) :=
      .object hlt hcell (.cons (.leaf _ _) (.cons (.leaf _ _) (.nil _)))
    refine .object (by decide) rfl (.cons (.leaf _ _) (.cons ?_ (.nil _)))
    exact .list (by decide) rfl (.cons (mapping (by decide) rfl)
      (.cons (mapping (by decide) rfl) (.nil _)))
  cases hconfig.read.symm.trans hcopied.configured
  cases hcopied.mappings
  have hbeside : Mapping.WritesClearOf (.cell 0) o.response xs s₀ := by
    refine hshallow ⟨(· = 0),⟨?_,?_⟩,rfl⟩ ?_
    · rintro id rfl
      decide
    · rintro id c rfl hc
      obtain rfl : Cell.object [] = c := Option.some.inj hc
      simp [Cell.layer,Layer.below]
    · refine List.pairwise_pair.2 fun p v q w _ _ hq => ?_
      have hname : Value.text "order" = .text q := Mapping.target_of_part hq
      obtain rfl : "order" = q := by simpa using hname
      decide +kernel
  obtain ⟨hread,hall⟩ := hkeeps hbeside
  have hnames : (answered? answeredOrder).map (fun b =>
      ([Mapping.of "id" "order.id",Mapping.of "order" "order"].filterMap
        (Mapping.received? b)).map Prod.fst) = some ["order.id","order"] := by decide +kernel
  rw [hcopied.answered] at hnames
  refine ⟨o,t',body,xs,rfl,hcopied.answered,hlast,hshown,hread,?_,hall⟩
  rw [← Option.some.inj hnames,← List.forall₂_eq_eq_eq]
  exact List.forall₂_map_left_iff.2 (List.forall₂_map_right_iff.2 (hall.imp fun _ _ hx => hx.1))

end StepGraph
