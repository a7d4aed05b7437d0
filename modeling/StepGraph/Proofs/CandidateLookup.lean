import StepGraph.Proofs.Alone
import StepGraph.Proofs.ExecutorHeap
import StepGraph.Proofs.Mirror

/-!
The lookup of a decision. It sends one request and nothing else, whatever AI provider there is, and
its candidates are those of the document that was answered.
-/
namespace StepGraph

open Attempt Work

namespace Match

variable {α β : Type} {a : View α} {b : View β} {R : α → β → Prop} {x : α} {y : β}

theorem listed_rel (h : a.Mirrors b R) (hxy : R x y) :
    List.Forall₂ R (listed a x) (listed b y) := by
  unfold listed
  have hl := h.layer x y hxy
  generalize a.layer x = l, b.layer y = m at hl
  cases hl with
  | scalar s => exact .cons hxy .nil
  | list items => exact items
  | object entries => exact .cons hxy .nil

theorem candidates_rel (h : a.Mirrors b R) (hxy : R x y) (path : Value) :
    Fault.Rel (List.Forall₂ R) (candidates a x path) (candidates b y path) := by
  have hall := listed_rel h hxy
  unfold candidates
  split
  · rename_i p
    split
    · exact .ok hall
    · have hl := h.lookup hxy p
      generalize Path.lookup a x p = o, Path.lookup b y p = q at hl
      cases hl with
      | none => exact .ok .nil
      | some hz =>
        simp only [h.isNull hz]
        split
        · exact .ok .nil
        · exact .ok (listed_rel h hz)
  · split
    · exact .ok hall
    · exact .ok .nil
  · split
    · exact .error _
    · exact .ok hall

theorem candidates_spelled {s : Store} {n : Nat} {body : Value} {i : Item} {path : Value}
    {items : List Item} (hi : s.Spells n body i) (h : candidates s.view i path = .ok items) :
    ∃ values, candidates Value.view body path = .ok values ∧
      List.Forall₂ (fun i v => s.Spells n v i) items values := by
  have hrel := candidates_rel (s.spells_mirrors n).toMirrors hi path
  have hfound : candidates s.access.toView i path = .ok items := h
  rw [hfound] at hrel
  generalize hvalues : candidates Value.access.toView body path = found at hrel
  cases hrel with
  | ok hall => exact ⟨_,hvalues,hall⟩

end Match

def answered? (w : World) : Option Value :=
  match (w.http.next Http.emptyAnswer).1 with
  | .failure _ => none
  | .answer a =>
    if Http.isSuccess a.status then (Http.readBody a.text).toOption else none

theorem answered?_eq {w w' : World} (h : w'.outside = w.outside) : answered? w' = answered? w := by
  have hhttp : w'.http = w.http := congrArg World.Outside.http h
  unfold answered?
  rw [hhttp]

namespace Steps

variable {run : Run} {node : Step Item} {config : Value} {w w' : World}

structure Exchanged (request : HttpRequest) (w : World) (r : Response) (w' : World) : Prop where
  calls : w'.calls = w.calls ++ [.http request]
  ai : w'.ai = w.ai
  grows : w.store.Grows w'.store
  /-- The containers of the document lead to each other only. -/
  apart : ∃ P, w'.store.Region P ∧ r.body.In P ∧ ∀ id, P id → w.store.cells.size ≤ id
  body : r.isSuccess = true → ∃ body, answered? w = some body ∧
    w'.store.Spells w'.store.cells.size body r.body

theorem send_ok {request : HttpRequest} {r : Response} (h : (Http.send request).exec w = (.ok r,w')) :
    Exchanged request w r w' := by
  obtain ⟨⟨⟩,w₁,hnote,h⟩ := exec_bind_eq_ok h
  cases hnote
  obtain ⟨reply,w₂,hreply,h⟩ := exec_bind_eq_ok h
  cases hreply
  cases hnext : (w.http.next Http.emptyAnswer).1 with
  | failure m =>
    simp only [hnext] at h
    cases h
  | answer a =>
    simp only [hnext] at h
    obtain ⟨body,w₃,hbody,h⟩ := exec_bind_eq_ok h
    obtain ⟨hread,rfl⟩ := Prod.mk.inj hbody
    obtain ⟨item,w₄,hplant,h⟩ := exec_bind_eq_ok h
    cases hplant
    cases h
    refine ⟨rfl,rfl,Store.plant_grows _ _,?_,fun hsuccess => ⟨body,?_,Store.spells_plant _ _⟩⟩
    · have hnone : w.store.Region (w.store.upTo (w.store.cells.size ≤ ·)) :=
        ⟨fun id hid => hid.2,fun id c hid _ => absurd hid.1 (Nat.not_le.2 hid.2)⟩
      obtain ⟨hinside,hbody⟩ := Store.plant_inside (fun _ hid => hid) hnone body
      exact ⟨_,hinside.region,hbody,fun id hid => hid.1⟩
    · have hstatus : Http.isSuccess a.status = true := hsuccess
      unfold answered?
      rw [hnext]
      simp only
      rw [if_pos hstatus,hread]
      rfl

theorem resolveSource_alone (run : Run) (node : Step Item) (config : Value) :
    Alone (resolveSource run node config) := by
  refine (Alone.scope _).bind fun scope => (Alone.of _).bind fun source => ?_
  refine (Alone.plant _).bind fun input => (Alone.plant _).bind fun output => ?_
  exact (Alone.logPhase _ _ _ _ _ _ _).bind fun _ => Alone.closed.pure _

theorem resolveSource_onward (run : Run) (node : Step Item) (config : Value) :
    Keeps Onward (resolveSource run node config) := by
  refine (Onward.scope _).bind fun scope => (Onward.of _).bind fun source => ?_
  refine (Onward.plant _).bind fun input => (Onward.plant _).bind fun output => ?_
  exact (logPhase_onward run node _ _ _ _ _).bind fun _ => Keeps.closed.pure _

theorem profileOf_alone (config : Value) (default : String) : Alone (profileOf config default) :=
  (Alone.require (by decide)).bind fun _ => Alone.api _ _

theorem profileOf_onward (config : Value) (default : String) :
    Keeps Onward (profileOf config default) :=
  (profileOf_alone config default).onward (profileOf_appendOnly config default).toGrowsStore

theorem requireHttp_onward : Keeps Onward (Work.require .http) :=
  (Alone.require (by decide)).onward (AppendOnly.require .http).toGrowsStore

theorem refuseLookup_alone (run : Run) (node : Step Item) (request : Entries Value) (url : String)
    (r : Response) : Alone (refuseLookup run node request url r) := by
  refine (Alone.read _).bind fun body => (Alone.of _).bind fun text => ?_
  refine (Alone.plant _).bind fun input => (Alone.plant _).bind fun output => ?_
  exact (Alone.logPhase _ _ _ _ _ _ _).bind fun _ => Alone.throw _

theorem refuseLookup_gives (run : Run) (node : Step Item) (request : Entries Value) (url : String)
    (r : Response) : Gives (fun _ => False) (refuseLookup run node request url r) :=
  .bind fun _ => .bind fun _ => .bind fun _ => .bind fun _ => .bind fun _ => .throw _

theorem shownCandidates_alone (candidates : List Item) : Alone (shownCandidates candidates) := by
  unfold shownCandidates
  split
  · exact Alone.edit _
  · exact Alone.closed.pure _

theorem shownCandidates_onward (candidates : List Item) :
    Keeps Onward (shownCandidates candidates) :=
  (shownCandidates_alone candidates).onward (shownCandidates_appendOnly candidates).toGrowsStore

theorem lookUp_unasked (run : Run) (node : Step Item) (config : Value) :
    Unasked (lookUp run node config) := by
  unfold lookUp
  refine (resolveSource_alone run node config).unasked.bind fun source => ?_
  refine (Alone.scope _).unasked.bind fun scope => ?_
  refine (profileOf_alone config _).unasked.bind fun p => (Alone.of _).unasked.bind fun method => ?_
  refine (Alone.of _).unasked.bind fun url => (Alone.require (by decide)).unasked.bind fun _ => ?_
  refine (Unasked.send _).bind fun r => ?_
  refine Unasked.closed.guard (refuseLookup_alone run node _ url r).unasked fun _ => ?_
  refine Alone.unasked ?_
  refine Alone.store.bind fun s => (Alone.of _).bind fun candidates => ?_
  refine (Alone.plant _).bind fun input => (shownCandidates_alone candidates).bind fun shown => ?_
  refine (Alone.newObject _).bind fun output => (Alone.logPhase _ _ _ _ _ _ _).bind fun _ => ?_
  exact Alone.closed.pure _

structure LookedUp (config : Value) (w : World) (l : Lookup) (w' : World) : Prop where
  settings : l.settings = .ofConfig config
  calls : ∃ headers, w'.calls = w.calls ++
    [.http { method := l.method, url := l.url, headers := headers }]
  ai : w'.ai = w.ai
  grows : w.store.Grows w'.store
  found : ∃ (body : Value) (values : List Value) (n : Nat), answered? w = some body ∧
    Match.candidates Value.view body l.settings.arrayPath = .ok values ∧
    List.Forall₂ (fun i v => w'.store.Spells n v i) l.candidates values

theorem lookUp_ok {l : Lookup} (h : (lookUp run node config).exec w = (.ok l,w')) :
    LookedUp config w l w' := by
  have hs := lookUp_settings config w l (congrArg Prod.fst h)
  unfold lookUp at h
  -- what goes before the request is alone
  obtain ⟨source,w₁,hw,h⟩ := (resolveSource_onward run node config).ahead h
  obtain ⟨scope,w₂,hw,h⟩ := (Onward.scope _).further hw h
  obtain ⟨p,w₃,hw,h⟩ := (profileOf_onward config "main").further hw h
  obtain ⟨method,w₄,hw,h⟩ := (Onward.of _).further hw h
  obtain ⟨url,w₅,hw,h⟩ := (Onward.of _).further hw h
  obtain ⟨⟨⟩,w₆,hw,h⟩ := requireHttp_onward.further hw h
  obtain ⟨r,w₇,hsend,h⟩ := exec_bind_eq_ok h
  obtain ⟨hcalls,hai,hgrows,-,hbody⟩ := send_ok hsend
  extract_lets request rest at h
  have hsuccess : r.isSuccess = true := by
    cases hr : r.isSuccess with
    | true => rfl
    | false =>
      rw [hr] at h
      obtain ⟨u,w₈,hrefuse,-⟩ := exec_bind_eq_ok h
      exact absurd (congrArg Prod.fst hrefuse) fun he => refuseLookup_gives run node _ _ _ _ _ he
  rw [hsuccess] at h
  obtain ⟨body,hanswered,hspells⟩ := hbody hsuccess
  -- the candidates are found where the answer stands; what comes behind them is alone again
  obtain ⟨s,w₈,hs₈,h⟩ := exec_bind_eq_ok (show (rest ⟨⟩).exec w₇ = (.ok l,w') from h)
  cases hs₈
  obtain ⟨items,w₉,hitems,h⟩ := exec_bind_eq_ok h
  obtain ⟨hfound,rfl⟩ := Prod.mk.inj hitems
  obtain ⟨values,hvalues,hall⟩ := Match.candidates_spelled hspells hfound
  obtain ⟨input,w₁₀,hw',h⟩ := (Onward.plant _).ahead h
  obtain ⟨shown,w₁₁,hw',h⟩ := (shownCandidates_onward items).further hw' h
  obtain ⟨output,w₁₂,hw',h⟩ := (Onward.newObject _).further hw' h
  obtain ⟨⟨⟩,w₁₃,hw',h⟩ := (logPhase_onward run node _ _ _ _ _).further hw' h
  cases h
  constructor
  case settings => exact hs
  case calls => exact ⟨_,by rw [hw'.calls,hcalls,hw.calls]⟩
  case ai => rw [hw'.ai,hai,hw.ai]
  case grows => exact trans_of Store.Grows hw.2 (trans_of Store.Grows hgrows hw'.2)
  case found =>
    refine ⟨body,values,w₇.store.cells.size,(answered?_eq hw.1) ▸ hanswered,hvalues,?_⟩
    exact hall.imp fun i v hi => hi.grows hw'.2

end Steps

end StepGraph
