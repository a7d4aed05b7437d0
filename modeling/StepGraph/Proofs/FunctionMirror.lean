import StepGraph.FieldFunction
import StepGraph.Proofs.Mirror

/-!
Field functions on containers and on trees. A function computes the same from a container as from
the tree that the container stands for, and passes on a part where it passes on that part's tree.
-/
namespace StepGraph

variable {α β γ δ : Type}

namespace FieldFunction

variable {a : Access α} {b : Access β} {R : α → β → Prop} {x : α} {y : β} {record : Scope}

inductive Result.Rel (R : α → β → Prop) : Result α → Result β → Prop
  | text (s : String) : Rel R (.text s) (.text s)
  | part {x : α} {y : β} (h : R x y) : Rel R (.part x) (.part y)

theorem texts_rel (r : Except Fault String) :
    Fault.Rel (Result.Rel R) (r >>= fun s => pure (.text s)) (r >>= fun s => pure (.text s)) :=
  (Fault.Rel.refl r).bind fun s _ h => h ▸ .ok (.text s)

theorem literal_rel (h : a.Mirrors b R) (hxy : R x y) :
    Fault.Rel (Result.Rel R) (literal a record x) (literal b record y) := by
  unfold literal
  have hl := h.layer x y hxy
  generalize a.layer x = l, b.layer y = m at hl
  cases hl with
  | scalar s =>
    cases s with
    | text t =>
      simp only
      split
      · exact texts_rel _
      · exact .ok (.part hxy)
    | _ => exact .ok (.part hxy)
  | list items => exact .ok (.part hxy)
  | object entries => exact .ok (.part hxy)

theorem tree_rel {S : γ → δ → Prop} (h : a.Mirrors b R) (hxy : R x y) {f : Value → Except Fault γ}
    {g : Value → Except Fault δ} (hf : ∀ v, Fault.Rel S (f v) (g v)) :
    Fault.Rel S (a.tree x >>= f) (b.tree y >>= g) := by
  rw [h.tree x y hxy]
  exact (Fault.Rel.refl _).bind fun v _ he => he ▸ hf v

theorem same_rel {S : γ → δ → Prop} {ε : Type} (r : Except Fault ε) {f : ε → Except Fault γ}
    {g : ε → Except Fault δ} (hf : ∀ v, Fault.Rel S (f v) (g v)) :
    Fault.Rel S (r >>= f) (r >>= g) :=
  (Fault.Rel.refl r).bind fun v _ he => he ▸ hf v

theorem template_rel (h : a.Mirrors b R) (hxy : R x y) :
    Fault.Rel (Result.Rel R) (template a x record) (template b y record) :=
  tree_rel h (h.orElse (h.field hxy _) (h.leaf _)) fun _ => texts_rel _

theorem mapM_tree_eq (h : a.Mirrors b R) {f : Value → Except Fault γ} {xs : List α} {ys : List β}
    (hxs : List.Forall₂ R xs ys) :
    (xs.mapM fun x => a.tree x >>= f) = ys.mapM fun y => b.tree y >>= f := by
  have hm : Fault.Rel (List.Forall₂ Eq) (xs.mapM fun x => a.tree x >>= f)
      (ys.mapM fun y => b.tree y >>= f) := by
    apply Fault.Rel.mapM _ hxs
    intro x y hxy
    exact tree_rel h hxy fun v => .refl _
  rw [List.forall₂_eq_eq_eq] at hm
  exact hm.eq

theorem concatenate_rel (h : a.Mirrors b R) (hxy : R x y) :
    Fault.Rel (Result.Rel R) (concatenate a x record) (concatenate b y record) := by
  refine (h.optionalParts (h.field hxy "fields")).bind fun xs ys hxs => ?_
  rw [mapM_tree_eq h hxs]
  refine same_rel _ fun texts => ?_
  have hl := h.layer _ _ (h.field hxy "separator")
  revert hl
  generalize a.layer _ = l, b.layer _ = m
  intro hl
  cases hl with
  | scalar s => cases s <;> first | exact .error _ | exact .ok (.text _)
  | list items => exact .error _
  | object entries => exact .error _

theorem firstHolding_rel (h : a.Mirrors b R) (hxy : R x y) {cs : List α} {ds : List β}
    (hcs : List.Forall₂ R cs ds) :
    Fault.Rel (Result.Rel R) (firstHolding a record x cs) (firstHolding b record y ds) := by
  induction hcs with
  | nil => exact literal_rel h hxy
  | cons hc _ ih =>
    unfold firstHolding
    refine (h.member hc "field").bind fun p q hpq => ?_
    refine tree_rel h (h.orElse hpq (h.leaf _)) fun path => same_rel _ fun actual => ?_
    refine tree_rel h (h.orElse (h.field hc "operator") (h.leaf _)) fun op => ?_
    refine tree_rel h (h.field hc "value") fun v => same_rel _ fun holds => ?_
    split
    · exact literal_rel h (h.field hc "result")
    · exact ih

theorem conditional_rel (h : a.Mirrors b R) (hxy : R x y) :
    Fault.Rel (Result.Rel R) (conditional a x record) (conditional b y record) :=
  (h.optionalParts (h.field hxy "conditions")).bind fun _ _ hcs =>
    firstHolding_rel h (h.field hxy "defaultValue") hcs

def PairRel (R : α → β → Prop) (p : α × α) (q : β × β) : Prop := R p.1 q.1 ∧ R p.2 q.2

theorem mapPairs_rel (h : a.Mirrors b R) (hxy : R x y) :
    Fault.Rel (List.Forall₂ (PairRel R)) (mapPairs a x) (mapPairs b y) := by
  have items : Fault.Rel (List.Forall₂ (PairRel R))
      (do return ((← a.optionalParts x).filter a.isObject).map fun m =>
        (a.field m "from",a.field m "to"))
      (do return ((← b.optionalParts y).filter b.isObject).map fun m =>
        (b.field m "from",b.field m "to")) := by
    refine (h.optionalParts hxy).bind fun xs ys hxs => .ok ?_
    rw [List.forall₂_map_left_iff,List.forall₂_map_right_iff]
    refine List.Forall₂.imp (fun m n hm => ⟨h.field hm "from",h.field hm "to"⟩) ?_
    exact List.rel_filter (fun m n hm => Bool.eq_iff_iff.1 (h.isObject hm)) hxs
  unfold mapPairs
  have hl := h.layer x y hxy
  generalize a.layer x = l, b.layer y = m at hl
  cases hl with
  | scalar s => exact items
  | list _ => exact items
  | object entries =>
    refine .ok ?_
    rw [List.forall₂_map_left_iff,List.forall₂_map_right_iff]
    refine entries.imp fun e f he => ⟨?_,he.2⟩
    rw [he.1]
    exact h.leaf _

theorem firstMatching_rel (h : a.Mirrors b R) (key : String) {ps : List (α × α)}
    {qs : List (β × β)} (hps : List.Forall₂ (PairRel R) ps qs) :
    Fault.Rel (Option.Rel R) (firstMatching a key ps) (firstMatching b key qs) := by
  induction hps with
  | nil => exact .ok .none
  | cons hp _ ih =>
    unfold firstMatching
    refine tree_rel h hp.1 fun source => same_rel _ fun text => ?_
    split
    · exact .ok (.some hp.2)
    · exact ih

theorem valueMap_rel (h : a.Mirrors b R) (hxy : R x y) :
    Fault.Rel (Result.Rel R) (valueMap a x record) (valueMap b y record) := by
  refine tree_rel h (h.orElse (h.field hxy "field") (h.leaf _)) fun path => ?_
  refine same_rel _ fun value => same_rel _ fun key => ?_
  refine (mapPairs_rel h (h.field hxy "mappings")).bind fun ps qs hps => ?_
  refine (firstMatching_rel h key hps).bind fun o p hop => ?_
  have default := Result.Rel.part (h.field hxy "defaultValue")
  cases hop with
  | none => exact .ok default
  | @some u v huv =>
    have ha := h.isNull huv
    cases hb : b.isNull v with
    | true =>
      simp only [Option.filter,ha,hb]
      exact .ok default
    | false =>
      simp only [Option.filter,ha,hb]
      exact .ok (.part huv)

theorem fieldText_eq (h : a.Mirrors b R) (hxy : R x y) :
    fieldText a x record = fieldText b y record :=
  (tree_rel h (h.orElse (h.field hxy "field") (h.leaf _)) fun _ => .refl _).eq

theorem isNoLength_eq (h : a.Mirrors b R) (hxy : R x y) : isNoLength a x = isNoLength b y := by
  unfold isNoLength
  have hl := h.layer x y hxy
  generalize a.layer x = l, b.layer y = m at hl
  cases hl with
  | scalar s => cases s <;> rfl
  | list items => rfl
  | object entries => rfl

theorem substring_rel (h : a.Mirrors b R) (hxy : R x y) :
    Fault.Rel (Result.Rel R) (substring a x record) (substring b y record) := by
  unfold substring
  rw [fieldText_eq h hxy]
  refine same_rel _ fun text => ?_
  refine tree_rel h (h.orElse (h.field hxy "start") (h.leaf _)) fun start => same_rel _ fun n => ?_
  simp only
  rw [isNoLength_eq h (h.field hxy "length")]
  split
  · exact .ok (.text _)
  · exact tree_rel h (h.field hxy "length") fun length => same_rel _ fun n => .ok (.text _)

theorem kind?_eq (h : a.Mirrors b R) (hxy : R x y) : kind? a x = kind? b y := by
  unfold kind?
  rw [h.truthy hxy]
  split
  · refine Fault.Rel.eq ((h.member hxy "type").bind fun u v huv => ?_)
    have hl := h.layer u v huv
    generalize a.layer u = l, b.layer v = m at hl
    cases hl with
    | scalar s => cases s <;> exact .refl _
    | list items => exact .refl _
    | object entries => exact .refl _
  · rfl

theorem address_eq (h : a.Mirrors b R) (hxy : R x y) : address a x record = address b y record := by
  refine Fault.Rel.eq ((h.optionalParts (h.field hxy "addressFields")).bind fun xs ys hxs => ?_)
  have hm := mapM_tree_eq (f := fun v => Text.trim <$> textAt record v) h hxs
  simp only [map_eq_pure_bind] at hm
  rw [hm]
  exact .refl _

theorem wanted_eq (h : a.Mirrors b R) (hxy : R x y) : wanted a x = wanted b y := by
  unfold wanted
  have hl := h.layer _ _ (h.orElse (h.field hxy "lookupType") (h.leaf (.text "postal_code")))
  simp only
  revert hl
  generalize a.layer _ = l, b.layer _ = m
  intro hl
  cases hl with
  | scalar s => cases s <;> rfl
  | list items => rfl
  | object entries => rfl

theorem evaluate_rel (h : a.Mirrors b R) (hxy : R x y) :
    Fault.Rel (Result.Rel R) (evaluate a x record) (evaluate b y record) := by
  unfold evaluate
  rw [kind?_eq h hxy,fieldText_eq h hxy]
  refine same_rel _ fun kind => ?_
  split
  · exact template_rel h hxy
  · exact concatenate_rel h hxy
  · exact conditional_rel h hxy
  · exact valueMap_rel h hxy
  · exact substring_rel h hxy
  · exact same_rel _ fun t => .ok (.text _)
  · exact same_rel _ fun t => .ok (.text _)
  · exact .ok (.part (h.leaf .null))

end FieldFunction

end StepGraph
