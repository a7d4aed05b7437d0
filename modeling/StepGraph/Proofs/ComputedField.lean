import StepGraph.Proofs.Custody
import StepGraph.Proofs.Prepare

/-!
Computed fields under a custody. What a field function passes on is a part of its own document, so
computed fields are written among the payload and the documents of the functions, and nowhere else.
-/
namespace StepGraph

open Attempt Edit Store Work

namespace FieldFunction

variable {α β : Type} {a : Access α} {T : α → Prop} {doc x : α} {record : Scope}

def PassesOn (T : α → Prop) (r : Except Fault (Result α)) : Prop := ∀ x, r = .ok (.part x) → T x

namespace PassesOn

theorem text (s : String) : PassesOn T (.ok (.text s)) := by
  intro x h
  cases h

theorem part (h : T x) : PassesOn T (.ok (.part x)) := by
  intro y hy
  cases hy
  exact h

theorem throw (f : Fault) : PassesOn T (.error f) := by
  intro x h
  cases h

theorem bind {p : Except Fault β} {f : β → Except Fault (Result α)}
    (hf : ∀ y, p = .ok y → PassesOn T (f y)) : PassesOn T (p >>= f) := by
  cases p with
  | error e => exact throw e
  | ok y => exact hf y rfl

end PassesOn

theorem literal_passesOn (hx : T x) : PassesOn T (literal a record x) := by
  unfold literal
  split
  · split
    · exact .bind fun t _ => .text t
    · exact .part hx
  · exact .part hx

theorem template_passesOn : PassesOn T (template a doc record) :=
  .bind fun _ _ => .bind fun s _ => .text s

theorem concatenate_passesOn : PassesOn T (concatenate a doc record) := by
  apply PassesOn.bind
  intro fields _
  apply PassesOn.bind
  intro texts _
  simp only
  split
  · exact .text _
  · exact .text _
  · exact .throw _
  · exact .throw _

theorem substring_passesOn : PassesOn T (substring a doc record) := by
  apply PassesOn.bind
  intro s _
  apply PassesOn.bind
  intro path _
  apply PassesOn.bind
  intro start _
  simp only
  split
  · exact .text _
  · exact .bind fun _ _ => .bind fun n _ => .text _

theorem firstHolding_passesOn (ha : a.Hereditary T) {default : α} (hd : T default) {cs : List α}
    (hcs : ∀ c ∈ cs, T c) : PassesOn T (firstHolding a record default cs) := by
  induction cs with
  | nil => exact literal_passesOn hd
  | cons c rest ih =>
    obtain ⟨hc,hrest⟩ := List.forall_mem_cons.1 hcs
    unfold firstHolding
    -- the field, the value there, the operator, the value to compare with, and the comparison
    iterate 6
      apply PassesOn.bind
      intro _ _
    split
    · exact literal_passesOn (ha.field hc _)
    · exact ih hrest

theorem conditional_passesOn (ha : a.Hereditary T) (hd : T doc) :
    PassesOn T (conditional a doc record) := by
  apply PassesOn.bind
  intro cs hcs
  exact firstHolding_passesOn ha (ha.field hd _) (ha.optionalParts (ha.field hd _) hcs)

theorem mapPairs_of (ha : a.Hereditary T) (hx : T x) {pairs : List (α × α)}
    (h : mapPairs a x = .ok pairs) : ∀ p ∈ pairs, T p.2 := by
  have hb := ha.below x hx
  intro p hp
  unfold mapPairs at h
  split at h
  · rename_i es hl
    cases h
    obtain ⟨e,he,rfl⟩ := List.mem_map.1 hp
    rw [hl] at hb
    exact hb e.2 (List.mem_map_of_mem he)
  · obtain ⟨items,hitems,h⟩ := eq_ok_of_bind h
    cases h
    obtain ⟨m,hm,rfl⟩ := List.mem_map.1 hp
    exact ha.field (ha.optionalParts hx hitems m (List.mem_filter.1 hm).1) _

theorem firstMatching_of {key : String} {pairs : List (α × α)} (hpairs : ∀ p ∈ pairs, T p.2)
    (h : firstMatching a key pairs = .ok (some x)) : T x := by
  induction pairs with
  | nil => cases h
  | cons p rest ih =>
    obtain ⟨hp,hrest⟩ := List.forall_mem_cons.1 hpairs
    unfold firstMatching at h
    obtain ⟨source,-,h⟩ := eq_ok_of_bind h
    obtain ⟨text,-,h⟩ := eq_ok_of_bind h
    split at h
    · cases h
      exact hp
    · exact ih hrest h

theorem valueMap_passesOn (ha : a.Hereditary T) (hd : T doc) :
    PassesOn T (valueMap a doc record) := by
  apply PassesOn.bind
  intro path _
  apply PassesOn.bind
  intro value _
  apply PassesOn.bind
  intro key _
  apply PassesOn.bind
  intro pairs hpairs
  apply PassesOn.bind
  intro found hfound
  split
  · rename_i x hx
    rw [(Option.filter_eq_some_iff.1 hx).1] at hfound
    exact .part (firstMatching_of (mapPairs_of ha (ha.field hd _) hpairs) hfound)
  · exact .part (ha.field hd _)

theorem evaluate_passesOn (ha : a.Hereditary T) (hd : T doc) :
    PassesOn T (evaluate a doc record) := by
  apply PassesOn.bind
  intro kind _
  split
  · exact template_passesOn
  · exact concatenate_passesOn
  · exact conditional_passesOn ha hd
  · exact valueMap_passesOn ha hd
  · exact substring_passesOn
  · exact .bind fun t _ => .text _
  · exact .bind fun t _ => .text _
  · exact .part (ha.leaf .null .null)

theorem evaluateAny_passesOn (ha : a.Hereditary T) (hd : T doc) (attempts : Int) (w : World) :
    PassesOn T ((evaluateAny a attempts doc record).exec w).1 := by
  intro x h
  obtain ⟨kind,w₁,-,h⟩ := exec_bind_eq_ok (Prod.ext h rfl)
  split at h
  · obtain ⟨found,w₂,-,h⟩ := exec_bind_eq_ok h
    split at h <;> cases h
    exact ha.leaf .null .null
  · exact evaluate_passesOn ha hd x (congrArg Prod.fst h)

variable {c : Item} {C : Custody c} {live : List Item} {functions : Library} {payload : Item}

theorem find_among (hf : ∀ f ∈ functions, f.2 ∈ live) {key : Value} {x : Item}
    (h : functions.find key = .ok (some x)) : x ∈ live := by
  unfold Library.find at h
  split at h
  · obtain ⟨f,hfound,rfl⟩ := Option.map_eq_some_iff.1 (Except.ok.inj h)
    exact hf f (List.mem_reverse.1 (List.mem_of_find?_eq_some hfound))
  · cases h

theorem written?_in {s : Store} {P : Nat → Prop} {r : Result Item}
    (hr : PassesOn (Item.In P) (.ok r)) {x : Item} (h : r.written? s = some x) : x.In P := by
  cases r with
  | text t =>
    unfold Result.written? at h
    simp only at h
    split at h
    · cases h
    · cases h
      trivial
  | part y =>
    have hy : y.In P := hr y rfl
    unfold Result.written? at h
    simp only at h
    split at h
    · cases h
    · split at h
      · cases h
      · cases h
        exact hy
    · cases h
      exact hy

theorem computed_minds (attempts : Int) {found : Option Item} (hf : ∀ x, found = some x → x ∈ live)
    (record : Item) (mapping : Value) :
    C.Minds live (computed attempts found record mapping) Option.toList := by
  apply Custody.Respects.finds (computed_appendOnly attempts found record mapping)
  intro w Q hQ o ho x hx
  rcases he : (computed attempts found record mapping).exec w with ⟨r,w'⟩
  rw [he] at ho
  subst ho
  obtain rfl := Option.mem_toList.1 hx
  obtain ⟨s,w₁,hs,he⟩ := exec_bind_eq_ok he
  cases hs
  split at he
  · cases he
  · rename_i logic hlogic
    have hin := hQ.mem _ (hf logic (Option.filter_eq_some_iff.1 hlogic).1)
    split at he
    · cases he
    · obtain ⟨scope,w₂,-,he⟩ := exec_bind_eq_ok he
      obtain ⟨result,w₃,hresult,he⟩ := exec_bind_eq_ok he
      have hpasses : PassesOn (Item.In (w.store.upTo Q)) (.ok result) := by
        have h : PassesOn (Item.In _) ((evaluateAny w.store.access attempts logic scope).exec w₂).1 :=
          evaluateAny_passesOn hQ.region.hereditary hin attempts w₂
        rwa [hresult] at h
      exact written?_in hpasses (Except.ok.inj (congrArg Prod.fst he))

theorem writeField_minds {record x : Item} (hr : record ∈ live) (hx : x ∈ live) (path : Value) :
    C.Minds live (writeField record path x) fun _ => [] := by
  unfold writeField
  split
  · rename_i p
    apply Custody.Respects.edit
    apply Custody.respects_of_leads
    intro n Q s hs
    refine ⟨?_,by simp⟩
    have hi := fanOut_inside (Value.fieldPlaces p) hs.new hs.region (hs.mem _ hr) (hs.mem _ hx)
    simp only [Edit.attempt,exec_mk,setField]
    rcases he : fanOut (Value.fieldPlaces p) s record x with ⟨s',_ | f⟩ <;> rw [he] at hi
    all_goals exact hi
  · exact .throw _
  · exact .throw _

theorem applyOne_minds (attempts : Int) (hf : ∀ f ∈ functions, f.2 ∈ live) {record : Item}
    (hr : record ∈ live) (mapping : Value) :
    C.Minds live (applyOne attempts functions record mapping) fun _ => [] := by
  rw [applyOne_eq]
  refine .appendOnly (.of _) fun key => .of_bind fun found hfound => ?_
  -- The logic of a function is worked with throughout, since its parts may be the result.
  have hlogic (x : Item) (hx : found = some x) : x ∈ live := by
    subst hx
    exact find_among hf hfound
  refine (computed_minds attempts hlogic record mapping).bind fun o => ?_
  cases o with
  | none => exact Custody.Respects.closed.pure _
  | some x =>
    have hwrite := writeField_minds (C := C) (List.mem_cons_of_mem x hr) List.mem_cons_self
      (mapping.field "fieldName")
    exact hwrite.bind fun _ => Custody.Respects.closed.pure _

theorem records_in {s : Store} {P : Nat → Prop} (h : s.Region P) (hp : payload.In P) :
    ∀ i ∈ records s payload, i.In P := by
  have hb := h.below (h.field hp "orders")
  unfold records
  split
  · rename_i orders hl
    rw [hl] at hb
    exact hb
  · exact List.forall_mem_singleton.2 hp

theorem applyAll_minds (attempts : Int) (hf : ∀ f ∈ functions, f.2 ∈ live) (hp : payload ∈ live)
    (mappings : List Value) :
    C.Minds live (applyAll attempts functions mappings payload) fun _ => [] := by
  unfold applyAll
  refine .look (fun s Q hQ => records_in hQ.region (hQ.mem _ hp)) fun s => ?_
  refine Custody.Respects.closed.bind (Custody.Respects.closed.mapM fun record hrecord => ?_)
    fun _ => Custody.Respects.closed.pure _
  refine .appendOnly .store fun s => ?_
  split
  · refine Custody.Respects.closed.bind (Custody.Respects.closed.mapM fun m _ => ?_)
      fun _ => Custody.Respects.closed.pure _
    exact applyOne_minds attempts (fun f hf' => List.mem_append_right _ (hf f hf'))
      (List.mem_append_left _ hrecord) m
  · exact Custody.Respects.closed.pure _

end FieldFunction

namespace Enrich

variable {c : Item} {C : Custody c} {live : List Item} {x : Item}

theorem library_minds (mappings : List Value) :
    C.Minds live (library mappings) fun functions => functions.map Prod.snd := by
  have planted (r : StoredFunction) (live' : List Item) :
      C.Minds live' (do return (Scalar.int r.id,← Work.plant r.logic)) fun f => [f.2] := by
    refine (Custody.Respects.plant r.logic).bind fun i => .pure ?_
    simp [Among]
  refine .appendOnly (.of _) fun keys => ?_
  refine Custody.Respects.bind (a := fun _ => []) (.looks fun _ => rfl) fun db => ?_
  refine .appendOnly (.of _) fun rows => .appendOnly (.of _) fun _ => ?_
  refine Custody.Respects.fewer (.mapM fun r _ live' _ => planted r live') fun functions i hi => ?_
  obtain ⟨f,hf,rfl⟩ := List.mem_map.1 hi
  exact List.mem_flatMap.2 ⟨f,hf,List.mem_singleton_self _⟩

theorem payload_minds (hx : x ∈ live) (kind : Option DocumentKind) (format : String) :
    C.Minds live (payload kind format x) fun _ => [] := by
  have stored (mappings : List Value) :
      C.Minds live (applyStored mappings x) fun _ => [] := by
    refine (library_minds mappings).bind fun functions => ?_
    apply FieldFunction.applyAll_minds
    · exact fun f hf => List.mem_append_left _ (List.mem_map_of_mem hf)
    · exact List.mem_append_right _ hx
  have idle : C.Minds live (Pure.pure ⟨⟩ : Work Unit) fun _ => [] := Custody.Respects.closed.pure _
  unfold payload
  split
  · exact idle
  · refine .appendOnly .store fun s => ?_
    split
    · exact idle
    · refine .appendOnly (.of _) fun mappings => ?_
      split
      · exact idle
      · refine Custody.Respects.closed.bind (stored mappings).caught fun done => ?_
        split
        · exact idle
        · split
          · exact idle
          · exact .throw _

end Enrich

end StepGraph
