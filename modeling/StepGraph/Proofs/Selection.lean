import StepGraph.Proofs.Choice

/-!
The record that a decision takes. A decision sends one request; it asks the provider once where the
candidates call for it, and takes the record at the place that the checked reply names, or none. No
reply makes it look at a place that is not there, and where a match is insisted on it does not end
without one.
-/
namespace StepGraph

open Attempt Work

namespace Json.ReadClosed

variable {P : Value → Prop}

theorem readBody (h : ReadClosed P) {s : String} {v : Value} (hv : Http.readBody s = .ok v) :
    P v := by
  unfold Http.readBody Payload.documentOr at hv
  split at hv
  · cases hv
    exact h.text s
  · split at hv <;> cases hv
    · rename_i hparse
      exact h.parse hparse
    · exact h.text s

theorem answered (h : ReadClosed P) {w : World} {body : Value} (hbody : answered? w = some body) :
    P body := by
  unfold answered? at hbody
  split at hbody
  · cases hbody
  · rename_i a _
    split at hbody
    · exact h.readBody (eq_ok_of_toOption hbody)
    · cases hbody

end Json.ReadClosed

namespace Steps

variable {run : Run} {node : Step Item} {config : Value} {l : Lookup} {w w' : World} {o : Outcome}

/-- A program that looks at no place that is not there. -/
def InRange {α : Type} (p : Work α) : Prop := Never (fun f => f = .misuse .outOfRange) p

namespace InRange

variable {α β : Type}

theorem of_dataFault {p : Work α} (h : Never (fun f => f.isDataFault = false) p) : InRange p := by
  intro w f hf hrange
  subst hrange
  exact h w _ hf rfl

theorem of {r : Except Fault α} (h : OnlyDataFault r) : InRange (Work.of r) :=
  of_dataFault (FailsOnData.of h).dataFault

theorem bind {p : Work α} {f : α → Work β} (hp : InRange p) (hf : ∀ x, InRange (f x)) :
    InRange (p >>= f) := Never.bind hp hf

theorem closed : Closed (InRange : {α : Type} → Work α → Prop) := Never.closed

theorem stepFault (cause : StepCause) (message : String) (output : Value) :
    InRange (throw (.stepFault cause message output) : Work α) := Never.throw nofun

theorem plant (v : Value) : InRange (Work.plant v) := of_dataFault (FailsOnData.plant v).dataFault

theorem newObject (es : Entries Item) : InRange (Work.newObject es) :=
  of_dataFault (FailsOnData.newObject es).dataFault

theorem phase (run : Run) (node : Step Item) (name status : String) (input output : Item)
    (error : Option String) : InRange (run.logPhase node name status input output error) := by
  refine of_dataFault fun w f hf hdata => ?_
  have h := (logPhase_exec run node name status input output error w).2.2 f hf
  simp [h] at hdata

theorem provider : InRange Ai.provider := by
  intro w f hf
  unfold Ai.provider at hf
  rw [exec_bind_ok (exec_get w)] at hf
  cases hai : w.ai with
  | none =>
    rw [hai] at hf
    cases hf
    nofun
  | some p =>
    rw [hai] at hf
    cases hf

theorem complete (parts : List Value) (t : Float) (m : Int) : InRange (Ai.complete parts t m) := by
  refine provider.bind fun p => ?_
  refine InRange.bind (p := Work.note _) (fun w f hf => by cases hf) fun _ => ?_
  extract_lets
  rcases p.script.next Ai.emptyCompletion with ⟨reply,rest⟩
  refine InRange.bind (p := modify _) (fun w f hf => by cases hf) fun _ => ?_
  cases reply with
  | completion s => exact closed.pure s
  | failure m => exact stepFault _ _ _

end InRange

theorem dataFault_prompt (source : Entries Value) (candidates : List Value) (keys : List String)
    (instruction : Value) : OnlyDataFault (Match.prompt source candidates keys instruction) := by
  refine (OnlyDataFault.json _ _).bind fun _ => (OnlyDataFault.json _ _).bind fun _ => ?_
  extract_lets rest
  have asked (x : String) : OnlyDataFault (rest x) := OnlyDataFault.ok _
  split
  · exact (OnlyDataFault.display _).bind fun _ => asked _
  · exact asked _

theorem dataFault_of_sayable {α : Type} {needed : Prop} {r : Except Fault α}
    (h : Value.Sayable needed r) : OnlyDataFault r := by
  intro f hf
  obtain ⟨rfl,-⟩ := h f hf
  rfl

theorem dataFault_verify (result : Entries Value) (candidates : List Value) (keys : List String) :
    OnlyDataFault (Match.verify result candidates keys) := by
  have relocate (fields : Entries Value) (hf : result.get? "matchedFields" = some (.object fields))
      (place : Int) : OnlyDataFault (Match.relocate result fields candidates keys place) :=
    dataFault_of_sayable (Match.sayable_relocate (fun h => h.fields _ hf) place)
  unfold Match.verify
  split
  · exact OnlyDataFault.error rfl
  · rename_i hfields
    split
    · exact OnlyDataFault.ok _
    · split
      · exact relocate _ hfields _
      · exact relocate _ hfields _
      · split
        · exact OnlyDataFault.error rfl
        · exact OnlyDataFault.ok _
      · exact OnlyDataFault.error rfl
  · exact OnlyDataFault.ok _

theorem dataFault_replyEntries (reply : Value) : OnlyDataFault (replyEntries reply) := by
  unfold replyEntries
  split
  · exact OnlyDataFault.ok _
  · exact (OnlyDataFault.display _).bind fun _ => OnlyDataFault.ok _

theorem dataFault_withPlace (es : Entries Value) : OnlyDataFault (withPlace es) := by
  unfold withPlace
  split
  · exact OnlyDataFault.ok _
  · exact (OnlyDataFault.display _).bind fun _ => OnlyDataFault.ok _

theorem ask_inRange (l : Lookup) : InRange (ask l) := by
  refine InRange.bind (InRange.closed.mapM fun c _ => ?_) fun values => ?_
  · exact InRange.bind (p := Work.store) (fun w f hf => by cases hf) fun s =>
      .of (OnlyDataFault.storeRead s c)
  refine (InRange.of (dataFault_prompt _ _ _ _)).bind fun question => ?_
  refine (InRange.complete _ _ _).bind fun text => ?_
  refine InRange.bind (Never.of fun f hf => ?_) fun reply => ?_
  · unfold Completion.read at hf
    split at hf <;> cases hf <;> nofun
  refine (InRange.of ((dataFault_replyEntries _).bind dataFault_withPlace)).bind fun placed => ?_
  exact .of (dataFault_verify _ _ _)

theorem decideUnmatched_inRange (input : Item) (result : Entries Value) :
    InRange (decideUnmatched run node l input result) := by
  refine (InRange.of ((OnlyDataFault.display _).bind fun _ => OnlyDataFault.ok _)).bind
    fun message => ?_
  split
  · refine (InRange.plant _).bind fun shown => (InRange.phase _ _ _ _ _ _ _).bind fun _ => ?_
    exact InRange.stepFault _ _ _
  · exact .of_dataFault (acceptUnmatched_touchesContext run node l input result).dataFault

theorem decided_inRange (run : Run) (node : Step Item) (config : Value) (l : Lookup) :
    InRange (decided run node config l) := by
  by_cases ha : l.Asks
  · rw [decided_asks ha]
    refine InRange.provider.bind fun p => (ask_inRange l).bind fun result => ?_
    refine (InRange.plant _).bind fun input => ?_
    split
    · exact decideUnmatched_inRange input result
    · refine (InRange.of_dataFault (choose_failsOnData run config l.settings _).dataFault).bind
        fun x => ?_
      refine (InRange.plant _).bind fun _ => (InRange.plant _).bind fun _ => ?_
      refine (InRange.newObject _).bind fun _ => (InRange.phase _ _ _ _ _ _ _).bind fun _ => ?_
      exact (InRange.newObject _).bind fun _ => InRange.closed.pure _
  · rcases Lookup.not_asks ha with hc | ⟨c,hc,hs⟩
    · rw [decided_empty hc]
      refine InRange.closed.guard (InRange.stepFault _ _ _) fun _ => ?_
      exact (InRange.newObject _).bind fun _ => InRange.closed.pure _
    · rw [decided_single hc hs]
      exact .of_dataFault (decideSingle_touchesContext run node config l c).dataFault

theorem exec_plant (v : Value) (w : World) : ∃ i w', (Work.plant v).exec w = (.ok i,w') ∧
    w'.store.Spells w'.store.cells.size v i ∧ w.store.Grows w'.store := by
  obtain ⟨i,w',h⟩ : ∃ i w', (Work.plant v).exec w = (.ok i,w') := ⟨_,_,rfl⟩
  obtain ⟨hspells,hw⟩ := plant_ok h
  exact ⟨i,w',h,hspells,hw.2⟩

def NoMatch (f : Fault) : Prop := ∃ message output, f = .stepFault .noMatch message output

/-- Refusing ends with the failure to match, unless its phase has numbers that do not fit. -/
theorem refuseUnmatched_fails {input : Item} {v : Value} {n m : Nat}
    (hconfig : w.store.Spells m config node.config) (hinput : w.store.Spells n v input)
    (reply : Entries Value) (message : String) :
    ∃ f w', (refuseUnmatched run node l input reply message).exec w = (.error f,w') ∧
      (NoMatch f ∨ f = .misuse .tooLarge ∧ ¬Recordable run) := by
  obtain ⟨shown,w₁,hshown,hspells,hgrows⟩ := exec_plant (.object (l.unmatched reply)) w
  unfold refuseUnmatched
  rw [exec_bind_ok hshown,exec_bind]
  have hfaults : FaultsAt w₁ (fun f => f = .misuse .tooLarge ∧ ¬Recordable run)
      (run.logPhase node phaseMatching "failed" input shown (some message)) :=
    logPhase_faults ⟨v,(hinput.grows hgrows).read⟩ ⟨_,hspells.read⟩
      ⟨config,(hconfig.grows hgrows).read⟩ phaseMatching "failed" (some message)
  rcases hphase : (run.logPhase node phaseMatching "failed" input shown
    (some message)).exec w₁ with ⟨f | ⟨⟩,w₂⟩
  · exact ⟨f,w₂,rfl,.inr (hfaults f (congrArg Prod.fst hphase))⟩
  · exact ⟨_,w₂,rfl,.inl ⟨_,_,rfl⟩⟩

/-- There is nothing to take: no candidate, or none at the place that the checked reply names. -/
def Fruitless (l : Lookup) (w : World) : Prop :=
  l.candidates = [] ∨ l.Asks ∧ ∃ (reply : Entries Value) (w' : World) (i : Int),
    (ask l).exec w = (.ok reply,w') ∧ Entries.get? reply "matchIndex" = some (.int i) ∧
      (i < 0 ∨ (l.candidates.length : Int) ≤ i)

theorem candidateAt?_none {reply : Entries Value} {candidates : List Item} {i : Int}
    (hi : reply.get? "matchIndex" = some (.int i)) :
    candidateAt? candidates reply = none ↔ i < 0 ∨ (candidates.length : Int) ≤ i := by
  unfold candidateAt?
  rw [hi]
  simp only
  split
  · simp [*]
  · rw [List.getElem?_eq_none_iff]
    omega

theorem decided_refuses {n m : Nat} {values : List Value}
    (hconfig : w.store.Spells m config node.config)
    (hl : List.Forall₂ (fun i v => w.store.Spells n v i) l.candidates values)
    (hi : l.settings.insists = true) (hf : Fruitless l w) :
    ∃ f w', (decided run node config l).exec w = (.error f,w') ∧
      (NoMatch f ∨ f = .misuse .tooLarge ∧ ¬Recordable run) := by
  rcases hf with hc | ⟨ha,reply,w₁,i,hask,hplace,hmiss⟩
  · rw [decided_empty hc]
    unfold decideNone
    rw [if_pos hi]
    exact ⟨_,w,rfl,.inl ⟨_,_,rfl⟩⟩
  · -- a reply that was checked came from a provider, and what it says can be told
    obtain ⟨-,hstore,hreplied⟩ := ask_ok hl hask
    obtain ⟨reply',placed,hreply',-⟩ := hreplied.checked
    obtain ⟨p,s,hp,-,-⟩ := replied?_eq_some hreply'
    obtain ⟨message,hmessage⟩ := hreplied.message
    rw [decided_asks ha]
    unfold decideAsked
    rw [exec_bind_ok (exec_provider hp),exec_bind_ok hask]
    obtain ⟨input,w₂,hinput,hspells,hgrows⟩ := exec_plant (.object
      [("candidateCount",.int l.candidates.length),("resolvedSourceFields",.object l.source),
        ("aiInstruction",l.settings.instruction),("model",.text p.model)]) w₁
    rw [exec_bind_ok hinput,(candidateAt?_none hplace).2 hmiss]
    simp only
    unfold decideUnmatched
    rw [exec_bind_ok (exec_of_ok hmessage w₂),if_pos hi]
    exact refuseUnmatched_fails ((hstore ▸ hconfig).grows hgrows) hspells reply message

/-- What a decision rests on: its lookup with the trees of the candidates, the checked reply if the
provider was asked, and the containers as they were when the record was taken. -/
structure Decision where
  config : Value
  lookup : Lookup
  values : List Value
  reply : Option (Entries Value)
  store : Store

namespace Decision

def record? (d : Decision) : Option Item := d.lookup.taken? d.reply

/-- What stands for the record: what it has at the configured path, or the record itself. -/
def value (d : Decision) : Item :=
  match d.record? with
  | none => .null
  | some i =>
    if (d.config.field "returnFieldPath").truthy then
      d.store.reached i (d.config.field "returnFieldPath")
    else i

theorem value_eq {d : Decision} (h : d.lookup.settings = .ofConfig d.config) :
    d.value = (d.record?.map (d.lookup.settings.valueIn d.store)).getD .null := by
  rw [h]
  unfold value
  cases d.record? with
  | none => rfl
  | some i => exact (valueIn_ofConfig d.config d.store i).symm

structure MadeBy (run : Run) (node : Step Item) (w : World) (d : Decision) (o : Outcome)
    (w' : World) : Prop where
  config : w.store.read node.config = .ok d.config
  settings : d.lookup.settings = .ofConfig d.config
  candidates : ∃ body, answered? w = some body ∧ Match.candidates Value.view body
    ((d.config.field "resultArrayPath").orElse (.text "")) = .ok d.values
  spelled : ∃ n, List.Forall₂ (fun i v => d.store.Spells n v i) d.lookup.candidates d.values
  grows : w.store.Grows d.store
  /-- One request, and one question where there is a reply. -/
  calls : ∃ headers question, w'.calls = w.calls ++
    .http { method := d.lookup.method, url := d.lookup.url, headers := headers } ::
    if d.reply.isSome then [.ai [Ai.textPart question] Ai.defaultTemperature Ai.defaultMaxTokens]
    else []
  asked : d.reply.isSome = true ↔ 2 ≤ d.values.length ∨
    d.values.length = 1 ∧ d.config.field "skipAiIfSingleResult" = .bool false
  /-- Where nobody is asked, nobody has to be there. -/
  unasked : d.reply = none → ∀ ai,
    (aiDecision run node).exec (w.offering ai) = (.ok o,w'.offering ai)
  replied : ∀ r, d.reply = some r → Replied w d.values r ∧ ShowsReply w'.store o r
  /-- No record is taken exactly if there is none, or none at the place that the reply names. -/
  missed : d.record? = none ↔ d.values = [] ∨ ∃ (r : Entries Value) (i : Int), d.reply = some r ∧
    Entries.get? r "matchIndex" = some (.int i) ∧ (i < 0 ∨ (d.values.length : Int) ≤ i)
  shown : Shows w'.store o (.ofOption d.record?) d.value
  insists : (d.config.field "failOnNoMatch").truthy = true → d.record? ≠ none

end Decision

theorem skipsSingle_eq_false {config : Value} :
    (DecisionSettings.ofConfig config).skipsSingle = false ↔
      config.field "skipAiIfSingleResult" = .bool false := by
  unfold DecisionSettings.ofConfig
  simp only
  split <;> simp_all

theorem replied?_eq (h : w'.ai = w.ai) : replied? w' = replied? w := by
  unfold replied?
  rw [h]

theorem taken?_none {reply : Option (Entries Value)} {values : List Value}
    (hlength : l.candidates.length = values.length) (hr : ∀ r, reply = some r → Replied w values r) :
    l.taken? reply = none ↔ values = [] ∨ ∃ (r : Entries Value) (i : Int), reply = some r ∧
      Entries.get? r "matchIndex" = some (.int i) ∧ (i < 0 ∨ (values.length : Int) ≤ i) := by
  cases reply with
  | none => simp [Lookup.taken?,← List.length_eq_zero_iff,hlength]
  | some r =>
    obtain ⟨i,hi⟩ := (hr r rfl).index
    rw [← candidateAt?_eq,candidateAt?_none hi,hlength]
    constructor
    · exact fun h => .inr ⟨r,i,rfl,hi,h⟩
    · rintro (rfl | ⟨r',i',hr',hi',h⟩)
      · -- no place is in an empty list
        simp only [List.length_nil]
        omega
      · cases hr'
        rw [hi] at hi'
        cases hi'
        exact h

/-- A decision that completes: its configuration, its lookup and its end. -/
structure Ran (run : Run) (node : Step Item) (w : World) (d : Decision) (w₁ : World) (o : Outcome)
    (w' : World) : Prop where
  config : w.store.read node.config = .ok d.config
  lookup : (lookUp run node d.config).exec w = (.ok d.lookup,w₁)
  found : LookedUp d.config w d.lookup w₁
  decided : (decided run node d.config d.lookup).exec w₁ = (.ok o,w')
  candidates : ∃ body, answered? w = some body ∧
    Match.candidates Value.view body d.lookup.settings.arrayPath = .ok d.values
  spelled : ∃ n, List.Forall₂ (fun i v => w₁.store.Spells n v i) d.lookup.candidates d.values
  ends : Ends run d.config d.lookup w₁ o w' d.reply d.record? d.store d.value

theorem aiDecision_ok (h : (aiDecision run node).exec w = (.ok o,w')) :
    ∃ d w₁, Ran run node w d w₁ o w' := by
  rw [aiDecision_eq] at h
  obtain ⟨config,w₀,hread,h⟩ := exec_bind_eq_ok h
  obtain ⟨hconfig,hw⟩ := Prod.mk.inj hread
  subst w₀
  obtain ⟨l,w₁,hlookup,h⟩ := exec_bind_eq_ok h
  have hfound := lookUp_ok hlookup
  obtain ⟨body,values,n,hbody,hvalues,hspells⟩ := hfound.found
  obtain ⟨reply,record,s,x,hends⟩ := decided_ok h
  obtain rfl : record = l.taken? reply := hends.record_eq
  have hvalue := Decision.value_eq (d := ⟨config,l,values,reply,s⟩) hfound.settings
  rw [hends.value] at hends
  refine ⟨⟨config,l,values,reply,s⟩,w₁,hconfig,hlookup,hfound,h,⟨body,hbody,hvalues⟩,⟨n,hspells⟩,?_⟩
  rw [hvalue]
  exact hends

theorem Ran.made {d : Decision} {w₁ : World} (h : Ran run node w d w₁ o w') :
    d.MadeBy run node w o w' := by
  obtain ⟨n,hspells⟩ := h.spelled
  obtain ⟨headers,hrequest⟩ := h.found.calls
  obtain ⟨question,hquestion⟩ := h.ends.calls hspells
  have hgrows := h.ends.grows hspells
  have hlength : d.lookup.candidates.length = d.values.length := hspells.length_eq
  have hreplied (r : Entries Value) (hr : d.reply = some r) : Replied w d.values r := by
    obtain ⟨reply,placed,hreply,hrest⟩ := (h.ends.replied hspells r hr).checked
    exact ⟨reply,placed,(replied?_eq h.found.ai).symm.trans hreply,hrest⟩
  constructor
  case config => exact h.config
  case settings => exact h.found.settings
  case candidates =>
    obtain ⟨body,hbody,hvalues⟩ := h.candidates
    rw [h.found.settings] at hvalues
    exact ⟨body,hbody,hvalues⟩
  case spelled => exact ⟨n,hspells.imp fun i v hi => hi.grows hgrows⟩
  case grows => exact trans_of Store.Grows h.found.grows hgrows
  case calls => exact ⟨headers,question,by simp [hquestion,hrequest]⟩
  case asked => rw [h.ends.asks,Lookup.Asks,h.found.settings,skipsSingle_eq_false,hlength]
  case unasked =>
    intro hnone ai
    -- neither the lookup nor what comes behind it notices the provider
    have hasks : ¬d.lookup.Asks := fun ha => by simpa [hnone] using h.ends.asks.2 ha
    have hread : (w.offering ai).store.read node.config = .ok d.config := h.config
    rw [aiDecision_eq,exec_bind_ok (exec_read hread),exec_bind,
      lookUp_unasked run node d.config ai w,h.lookup]
    simp only
    rw [decided_unasked hasks run node d.config ai w₁,h.decided]
  case replied => exact fun r hr => ⟨hreplied r hr,h.ends.tells r hr⟩
  case missed => exact taken?_none hlength hreplied
  case shown => exact h.ends.shows
  case insists =>
    intro hi
    exact h.ends.insists (by rw [h.found.settings]; exact hi)

/-- What becomes of a decision behind its lookup, whatever the provider replies: a document is
checked, no place is looked at that is not there, and a match that is insisted on is not done
without. -/
structure WhateverReplied (run : Run) (node : Step Item) (config : Value) (w : World) (l : Lookup)
    (w₁ : World) : Prop where
  checked : ∀ (body reply : Value) (values : List Value) (question : String),
    answered? w = some body →
    Match.candidates Value.view body l.settings.arrayPath = .ok values →
    Match.prompt l.source values (Match.identifiers (values.headD .null)) l.settings.instruction =
      .ok question →
    replied? w = some reply → ∃ result w₂, (ask l).exec w₁ = (.ok result,w₂)
  inRange : ∀ f w', (aiDecision run node).exec w = (.error f,w') → f ≠ .misuse .outOfRange
  insists : (config.field "failOnNoMatch").truthy = true → Fruitless l w₁ →
    ∃ f w', (aiDecision run node).exec w = (.error f,w') ∧
      (NoMatch f ∨ f = .misuse .tooLarge ∧ ¬Recordable run)

theorem firm {n : Nat} {w₁ : World} (hconfig : w.store.Spells n config node.config)
    (hlookup : (lookUp run node config).exec w = (.ok l,w₁)) :
    WhateverReplied run node config w l w₁ := by
  obtain ⟨hsettings,-,hai,hgrows,body,values,m,hbody,hvalues,hspells⟩ := lookUp_ok hlookup
  have hexec : (aiDecision run node).exec w = (decided run node config l).exec w₁ := by
    rw [aiDecision_eq,exec_bind_ok (exec_read hconfig.read),exec_bind_ok hlookup]
  constructor
  case checked =>
    intro body' reply values' question hbody' hvalues' hquestion hreply
    obtain rfl : body = body' := Option.some.inj (hbody.symm.trans hbody')
    obtain rfl : values = values' := Except.ok.inj (hvalues.symm.trans hvalues')
    refine exec_ask hspells ?_ hquestion ((replied?_eq hai).trans hreply)
    exact candidates_in Value.writable_hereditary (Json.readClosed_writable.answered hbody) hvalues
  case inRange =>
    intro f w' hf
    rw [hexec] at hf
    exact decided_inRange run node config l w₁ f (congrArg Prod.fst hf)
  case insists =>
    intro hi hf
    rw [hexec]
    exact decided_refuses (hconfig.grows hgrows) hspells (by rw [hsettings]; exact hi) hf

/-- A decision that completes made one request, asked the provider once or not at all, and took the
record at the place that was named, or none. Behind its lookup no reply makes it look at a place that
is not there, and where it insists on a match it fails for want of one. -/
theorem aiDecision_takes (run : Run) (node : Step Item) (w : World) :
    (∀ o w', (aiDecision run node).exec w = (.ok o,w') → ∃ d : Decision, d.MadeBy run node w o w') ∧
    ∀ n config l w₁, w.store.Spells n config node.config →
      (lookUp run node config).exec w = (.ok l,w₁) → WhateverReplied run node config w l w₁ := by
  refine ⟨fun o w' h => ?_,fun _ _ _ _ => firm⟩
  obtain ⟨d,w₁,hran⟩ := aiDecision_ok h
  exact ⟨d,hran.made⟩

def keyedStep : Step Item := { id := "m", type := "ai_decision", config := .cell 1 }

def twoRecords : World where
  store := ⟨#[.object [],.object [("returnFieldPath",.text "k")]]⟩
  http := { replies := [.answer
    { status := 200, reason := "OK", text := "[\x7b\"k\": \"A\"\x7d, \x7b\"k\": \"B\"\x7d]" }] }
  ai := some { model := "m", script := { replies := [.completion "\x7b\"matchIndex\": 1\x7d"] } }

/-- The second record is taken, and shown with what it has at the configured path. -/
theorem aiDecision_takes_second :
    ∃ (o : Outcome) (w' : World) (d : Decision),
      (aiDecision { context := .cell 0 } keyedStep).exec twoRecords = (.ok o,w') ∧
      d.MadeBy { context := .cell 0 } keyedStep twoRecords o w' ∧ w'.calls.length = 2 ∧
      (w'.store.read? (.ofOption d.record?)).bind (fun v => (v.field "k").text?) = some "B" ∧
      (w'.store.read? d.value).bind Value.text? = some "B" := by
  have hok : ((aiDecision { context := .cell 0 } keyedStep).exec twoRecords).1.isOk = true := by
    decide +kernel
  have hcalls :
      ((aiDecision { context := .cell 0 } keyedStep).exec twoRecords).2.calls.length = 2 := by
    decide +kernel
  have hrecord : (shown? ((aiDecision { context := .cell 0 } keyedStep).exec twoRecords)
      "matchedRecord").bind (fun v => (v.field "k").text?) = some "B" := by decide +kernel
  have hvalue : (shown? ((aiDecision { context := .cell 0 } keyedStep).exec twoRecords)
      "matchedValue").bind Value.text? = some "B" := by decide +kernel
  rcases h : (aiDecision { context := .cell 0 } keyedStep).exec twoRecords with ⟨f | o,w'⟩ <;>
    rw [h] at hok hcalls hrecord hvalue
  · cases hok
  · obtain ⟨d,hmade⟩ := (aiDecision_takes { context := .cell 0 } keyedStep twoRecords).1 o w' h
    obtain ⟨hrecord',hvalue'⟩ := shown?_of_shows hmade.shown
    rw [hrecord'] at hrecord
    rw [hvalue'] at hvalue
    exact ⟨o,w',d,rfl,hmade,hcalls,hrecord,hvalue⟩

end Steps

end StepGraph
