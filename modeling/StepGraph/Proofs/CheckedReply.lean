import StepGraph.Proofs.CandidateLookup
import StepGraph.Proofs.MatchCheck

/-!
The reply of an AI provider that chooses. Whatever document is replied, it is given a place and
checked, and the checked reply names its place by a whole number. What a reply says can be written
again, since it was read.
-/
namespace StepGraph

open Attempt Work Value

namespace Match

variable {result out : Entries Value} {candidates : List Value} {keys : List String} {place : Int}

theorem verify_cases (h : indexOf? result = some place)
    (hv : verify result candidates keys = .ok out) : out = result ∨ ∃ j, Moved result j out := by
  have hsearch (fields : Entries Value) (hs : search result fields candidates keys place = .ok out) :
      out = result ∨ ∃ j, Moved result j out := by
    cases search_ok hs with
    | exact j hj hc ho => exact .inr ⟨j,ho⟩
    | nearly j hnone hj hc ho hagain => exact .inr ⟨j,ho⟩
    | nowhere hnone ho => exact .inl ho
  rw [verify_placed h] at hv
  split at hv
  · rename_i fields _
    split at hv
    · cases hv
      exact .inl rfl
    · unfold relocate at hv
      split at hv
      · cases hv
        exact .inl rfl
      · obtain ⟨here,-,hv⟩ := eq_ok_of_bind hv
        split at hv
        · cases hv
          exact .inl rfl
        · exact hsearch fields hv
  · cases hv
    exact .inl rfl

theorem Moved.tellable {j : Nat} (h : Moved result j out) (hr : Tellable result) : Tellable out where
  reason v hv := by
    obtain ⟨t,ht⟩ := h.reason
    rw [ht] at hv
    cases hv
    exact writable_text t
  fields v hv := hr.fields v ((h.rest _ (by decide) (by decide)).symm.trans hv)

end Match

open Match (Tellable)

namespace Steps

variable {l : Lookup} {es placed : Entries Value} {reply : Value} {w w' : World}

/-- Once a reply has been given a place, it names one by a whole number: the one that it named
itself, or the first. The fields that it repeats stay. -/
theorem withPlace_place (h : withPlace es = .ok placed) :
    placed.get? "matchIndex" = some (.int ((namedPlace? es).getD 0)) ∧
      placed.get? "matchedFields" = es.get? "matchedFields" := by
  unfold withPlace at h
  split at h
  · rename_i i hi
    cases h
    rw [hi]
    exact ⟨Entries.get?_put_self _ _ _,Entries.get?_put_of_ne (by decide) _ _⟩
  · rename_i hi
    obtain ⟨reason,-,h⟩ := eq_ok_of_bind h
    cases h
    rw [hi,Entries.get?_put_self,Entries.get?_put_of_ne (by decide),
      Entries.get?_put_of_ne (by decide)]
    exact ⟨rfl,rfl⟩

theorem tellable_put {k : String} {v : Value} (h : Tellable es) (hv : v.Writable) :
    Tellable (es.put k v) := by
  have hput {k' : String} (hes : ∀ u, es.get? k' = some u → u.Writable) (u : Value)
      (hu : (es.put k v).get? k' = some u) : u.Writable := by
    by_cases hk : k' = k
    · subst hk
      rw [Entries.get?_put_self] at hu
      cases hu
      exact hv
    · rw [Entries.get?_put_of_ne hk] at hu
      exact hes u hu
  exact ⟨hput h.reason,hput h.fields⟩

theorem tellable_place {i : Int} (h : Tellable es) : Tellable (es.put "matchIndex" (.int i)) where
  reason v hv := h.reason v ((Entries.get?_put_of_ne (by decide) es _).symm.trans hv)
  fields v hv := h.fields v ((Entries.get?_put_of_ne (by decide) es _).symm.trans hv)

theorem withPlace_tellable (h : Tellable es) : ∃ placed, withPlace es = .ok placed ∧
    Tellable placed := by
  unfold withPlace
  split
  · exact ⟨_,rfl,tellable_place h⟩
  · obtain ⟨reason,hreason⟩ := (Match.sayable_reasonText es).exists_ok h
    rw [hreason]
    exact ⟨_,rfl,tellable_place (tellable_put h (writable_text _))⟩

theorem replyEntries_tellable (h : reply.Writable) :
    ∃ es, replyEntries reply = .ok es ∧ Tellable es := by
  unfold replyEntries
  split
  · exact ⟨_,rfl,Match.tellable_of_writable h⟩
  · rw [(told_display _).eq_ok h]
    exact ⟨_,rfl,Match.tellable_of_writable (by simp [writable_object,writable_text])⟩

/-- The document that a provider replies next, if there is a provider and that is a document. -/
def replied? (w : World) : Option Value :=
  match w.ai with
  | none => none
  | some p =>
    match (p.script.next Ai.emptyCompletion).1 with
    | .failure _ => none
    | .completion s => (Json.parse (Completion.withoutFences s)).toOption

theorem replied?_eq_some (h : replied? w = some reply) :
    ∃ p s, w.ai = some p ∧ (p.script.next Ai.emptyCompletion).1 = .completion s ∧
      Json.parse (Completion.withoutFences s) = .ok reply := by
  unfold replied? at h
  split at h
  · cases h
  · rename_i p hp
    split at h
    · cases h
    · rename_i s hs
      exact ⟨p,s,hp,hs,eq_ok_of_toOption h⟩

theorem read_eq_ok {s : String} {output : Value} :
    Completion.read s output = .ok reply ↔
      Json.parse (Completion.withoutFences s) = .ok reply := by
  unfold Completion.read
  split <;> simp [*]

/-- The place that a value names: a whole number, also one that is written with a point. -/
def placeNamed? : Value → Option Int
  | .int i => some i
  | .float x =>
    match Decimal.Reading.ofFloat x with
    | .finite d => if d.isWhole then some d.truncate else none
    | _ => none
  | _ => none

theorem namedPlace?_eq (es : Entries Value) :
    namedPlace? es = placeNamed? ((Value.object es).field "matchIndex") := by
  have hfield : (Value.object es).field "matchIndex" = (es.get? "matchIndex").getD .null := rfl
  unfold namedPlace?
  rw [hfield]
  cases es.get? "matchIndex" with
  | none => rfl
  | some v =>
    cases v with
    | scalar a => cases a <;> rfl
    | list xs => rfl
    | object es => rfl

/-- A reply once it has a place: the one that an object names, or else the first. The fields that an
object repeats stay. -/
structure Placed (reply : Value) (placed : Entries Value) : Prop where
  place : placed.get? "matchIndex" =
    some (.int ((placeNamed? (reply.field "matchIndex")).getD 0))
  fields : placed.get? "matchedFields" = reply.entries.get? "matchedFields"

theorem placed_of_withPlace (h : (replyEntries reply >>= withPlace) = .ok placed) :
    Placed reply placed := by
  obtain ⟨es,hes,h⟩ := eq_ok_of_bind h
  obtain ⟨hplace,hfields⟩ := withPlace_place h
  rw [namedPlace?_eq] at hplace
  unfold replyEntries at hes
  split at hes
  · cases hes
    exact ⟨hplace,hfields⟩
  · rename_i hother
    obtain ⟨text,-,hes⟩ := eq_ok_of_bind hes
    cases hes
    cases reply with
    | object es => exact absurd rfl (hother es)
    | scalar a => exact ⟨hplace,hfields⟩
    | list xs => exact ⟨hplace,hfields⟩

/-- How a reply came: the provider replied with a document, which was given a place and checked. -/
structure Replied (w : World) (values : List Value) (result : Entries Value) : Prop where
  checked : ∃ reply placed, replied? w = some reply ∧ Placed reply placed ∧
    (replyEntries reply >>= withPlace) = .ok placed ∧
    Match.verify placed values (Match.identifiers (values.headD .null)) = .ok result

theorem placed_of_replied (h : replied? w = some reply) :
    ∃ placed, (replyEntries reply >>= withPlace) = .ok placed ∧ Tellable placed := by
  obtain ⟨p,s,-,-,hparse⟩ := replied?_eq_some h
  obtain ⟨es,hes,htold⟩ := replyEntries_tellable (Json.writable_parse hparse)
  rw [hes]
  exact withPlace_tellable htold

theorem index_of_placed (h : (replyEntries reply >>= withPlace) = .ok placed) :
    ∃ i, placed.get? "matchIndex" = some (.int i) := by
  obtain ⟨es,-,h⟩ := eq_ok_of_bind h
  exact ⟨_,(withPlace_place h).1⟩

namespace Replied

variable {values : List Value} {result : Entries Value}

theorem index (h : Replied w values result) :
    ∃ i, result.get? "matchIndex" = some (.int i) := by
  obtain ⟨reply,placed,-,hplace,-,hverify⟩ := h.checked
  have hi := hplace.place
  rcases Match.verify_cases (Match.indexOf?_int hi) hverify with rfl | ⟨j,hmoved⟩
  · exact ⟨_,hi⟩
  · exact ⟨j,hmoved.place⟩

theorem tellable (h : Replied w values result) : Tellable result := by
  obtain ⟨reply,placed,hreply,-,hplaced,hverify⟩ := h.checked
  obtain ⟨i,hi⟩ := index_of_placed hplaced
  obtain ⟨placed',hplaced',htold⟩ := placed_of_replied hreply
  obtain rfl : placed' = placed := Except.ok.inj (hplaced'.symm.trans hplaced)
  rcases Match.verify_cases (Match.indexOf?_int hi) hverify with rfl | ⟨j,hmoved⟩
  · exact htold
  · exact hmoved.tellable htold

theorem message (h : Replied w values result) : ∃ text, noMatchText result = .ok text := by
  have hreason : (Value.ofOption (Entries.get? result "reason")).Writable := by
    cases hr : Entries.get? result "reason" with
    | none => rfl
    | some v => exact h.tellable.reason v hr
  unfold noMatchText
  rw [(told_display _).eq_ok hreason]
  exact ⟨_,rfl⟩

end Replied

theorem provider_ok {p : Provider} (h : Ai.provider.exec w = (.ok p,w')) :
    w.ai = some p ∧ w' = w := by
  unfold Ai.provider at h
  rw [exec_bind_ok (exec_get w)] at h
  cases hai : w.ai with
  | none =>
    rw [hai] at h
    cases h
  | some q =>
    rw [hai] at h
    cases h
    exact ⟨rfl,rfl⟩

theorem exec_provider {p : Provider} (h : w.ai = some p) : Ai.provider.exec w = (.ok p,w) := by
  unfold Ai.provider
  rw [exec_bind_ok (exec_get w),h]
  rfl

theorem complete_ok {parts : List Value} {t : Float} {m : Int} {text : String}
    (h : (Ai.complete parts t m).exec w = (.ok text,w')) :
    w'.calls = w.calls ++ [.ai parts t m] ∧ w'.store = w.store ∧
      ∃ p, w.ai = some p ∧ (p.script.next Ai.emptyCompletion).1 = .completion text := by
  unfold Ai.complete at h
  obtain ⟨p,w₁,hp,h⟩ := exec_bind_eq_ok h
  obtain ⟨hai,hw⟩ := provider_ok hp
  subst w₁
  obtain ⟨⟨⟩,w₂,hnote,h⟩ := exec_bind_eq_ok h
  cases hnote
  rcases hnext : p.script.next Ai.emptyCompletion with ⟨reply,rest⟩
  rw [hnext] at h
  obtain ⟨⟨⟩,w₃,hscript,h⟩ := exec_bind_eq_ok h
  cases hscript
  cases reply with
  | failure m => cases h
  | completion s =>
    cases h
    exact ⟨rfl,rfl,p,hai,congrArg Prod.fst hnext⟩

theorem exec_complete {p : Provider} {text : String} (hp : w.ai = some p)
    (ht : (p.script.next Ai.emptyCompletion).1 = .completion text) (parts : List Value) (t : Float)
    (m : Int) : ∃ w', (Ai.complete parts t m).exec w = (.ok text,w') := by
  unfold Ai.complete
  rw [exec_bind_ok (exec_provider hp)]
  rcases hnext : p.script.next Ai.emptyCompletion with ⟨reply,rest⟩
  obtain rfl : reply = .completion text := by simpa [hnext] using ht
  exact ⟨_,rfl⟩

theorem exec_of_ok {α : Type} {r : Except Fault α} {x : α} (h : r = .ok x) (w : World) :
    (Work.of r).exec w = (.ok x,w) := by
  rw [h]
  rfl

theorem exec_read {i : Item} {v : Value} (h : w.store.read i = .ok v) :
    (Work.read i).exec w = (.ok v,w) := by
  change (w.store.read i,w) = _
  rw [h]

theorem exec_mapM_read {is : List Item} {values : List Value} {n : Nat}
    (hl : List.Forall₂ (fun i v => w.store.Spells n v i) is values) :
    (is.mapM Work.read).exec w = (.ok values,w) := by
  induction hl with
  | nil => rfl
  | cons hi _ ih =>
    rw [List.mapM_cons,exec_bind_ok (exec_read hi.read),exec_bind_ok ih]
    rfl

section Candidates

variable {values : List Value} {n : Nat}
  (hl : List.Forall₂ (fun i v => w.store.Spells n v i) l.candidates values)

include hl

theorem ask_ok {result : Entries Value} (h : (ask l).exec w = (.ok result,w')) :
    (∃ question, Match.prompt l.source values (Match.identifiers (values.headD .null))
        l.settings.instruction = .ok question ∧ w'.calls = w.calls ++
      [.ai [Ai.textPart question] Ai.defaultTemperature Ai.defaultMaxTokens]) ∧
    w'.store = w.store ∧ Replied w values result := by
  unfold ask at h
  rw [exec_bind_ok (exec_mapM_read hl)] at h
  obtain ⟨question,w₁,hquestion,h⟩ := exec_bind_eq_ok h
  obtain ⟨hprompt,rfl⟩ := Prod.mk.inj hquestion
  obtain ⟨text,w₂,htext,h⟩ := exec_bind_eq_ok h
  obtain ⟨hcalls,hstore,p,hai,hscript⟩ := complete_ok htext
  obtain ⟨reply,w₃,hreply,h⟩ := exec_bind_eq_ok h
  obtain ⟨hread,rfl⟩ := Prod.mk.inj hreply
  obtain ⟨placed,w₄,hplaced,h⟩ := exec_bind_eq_ok h
  obtain ⟨hplace,rfl⟩ := Prod.mk.inj hplaced
  obtain ⟨hverify,rfl⟩ := Prod.mk.inj h
  refine ⟨⟨question,hprompt,hcalls⟩,hstore,⟨reply,placed,?_,placed_of_withPlace hplace,hplace,hverify⟩⟩
  simp [replied?,hai,hscript,read_eq_ok.1 hread,Except.toOption]

theorem exec_ask {question : String} (hw : ∀ v ∈ values, v.Writable)
    (hq : Match.prompt l.source values (Match.identifiers (values.headD .null))
      l.settings.instruction = .ok question) (hr : replied? w = some reply) :
    ∃ result w', (ask l).exec w = (.ok result,w') := by
  obtain ⟨placed,hplaced,htold⟩ := placed_of_replied hr
  obtain ⟨i,hi⟩ := index_of_placed hplaced
  obtain ⟨result,hresult⟩ := (Match.sayable_verify (Match.indexOf?_int hi)).exists_ok ⟨htold,hw⟩
  obtain ⟨p,text,hai,hscript,hparse⟩ := replied?_eq_some hr
  obtain ⟨w₁,htext⟩ := exec_complete hai hscript [Ai.textPart question] Ai.defaultTemperature
    Ai.defaultMaxTokens
  refine ⟨result,w₁,?_⟩
  refine (exec_bind_ok (exec_mapM_read hl) _).trans ?_
  refine (exec_bind_ok (exec_of_ok hq w) _).trans ?_
  refine (exec_bind_ok htext _).trans ?_
  refine (exec_bind_ok (exec_of_ok (read_eq_ok.2 hparse) w₁) _).trans ?_
  refine (exec_bind_ok (exec_of_ok hplaced w₁) _).trans ?_
  exact exec_of_ok hresult w₁

end Candidates

end Steps

end StepGraph
