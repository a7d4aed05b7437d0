import StepGraph.Proofs.Choice
import StepGraph.Proofs.Conditions
import StepGraph.Proofs.Owned
import StepGraph.Proofs.StoredMatch

/-!
The verdict of a branching step. Every condition asks about one value of the context; where all of
them have an answer the step completes, with the handle, the output and the one entry of the context
that tell whether all of them hold, or one of them.
-/
namespace StepGraph

open Attempt Work

namespace Entries

variable {α β : Type} {R : α → β → Prop} {es : Entries α} {fs : Entries β} {x : α} {y : β}

theorem forall₂_put (h : List.Forall₂ (fun e f => e.1 = f.1 ∧ R e.2 f.2) es fs) (k : String)
    (hxy : R x y) :
    List.Forall₂ (fun e f => e.1 = f.1 ∧ R e.2 f.2) (es.put k x) (fs.put k y) := by
  induction h with
  | nil => exact .cons ⟨rfl,hxy⟩ .nil
  | @cons e f _ _ he hrest ih =>
    obtain ⟨k',v⟩ := e
    obtain ⟨k'',v'⟩ := f
    obtain ⟨rfl,hv⟩ := he
    unfold put
    split
    · exact .cons ⟨rfl,hxy⟩ hrest
    · exact .cons ⟨rfl,hv⟩ ih

end Entries

namespace Store

variable {s s' : Store} {i : Item} {its : Entries Item} {es : Entries Value}

theorem mapM_some_of_forall₂ {α β : Type} {f : α → Option β} {xs : List α} {ys : List β}
    (h : List.Forall₂ (fun x y => f x = some y) xs ys) : xs.mapM f = some ys := by
  induction h with
  | nil => rfl
  | cons hx _ ih => rw [List.mapM_cons,hx,ih]; rfl

theorem tells_object (hl : s.layer i = .object its)
    (h : List.Forall₂ (fun e f => e.1 = f.1 ∧ s.Tells e.2 f.2) its es) :
    s.Tells i (.object es) := by
  have hmap : its.mapM (readEntry (s.readTo (s.cells.size + 1))) = some es := by
    refine mapM_some_of_forall₂ (h.imp fun e f hef => ?_)
    obtain ⟨hk,d,hd,hv⟩ := hef
    rw [readEntry,readTo_le hd hv,hk]
    rfl
  refine tells_of_readTo (d := s.cells.size + 1 + 1) ?_
  rw [readTo,hl]
  exact Option.map_eq_some_iff.2 ⟨es,hmap,rfl⟩

theorem Tells.isObject (h : s.Tells i (.object es)) : s.isObject i = true :=
  (tells_mirrors s).isObject h

theorem putField_cells {id : Nat} (hl : s.layer (.cell id) = .object its) (k : String) (x : Item) :
    ∀ n, n ≠ id → (s.putField (.cell id) k x).cells[n]? = s.cells[n]? := by
  obtain ⟨id',hid',hid⟩ :=
    cell_of_isContainer (by rw [hl]; rfl : (s.layer (.cell id)).isContainer = true)
  cases hid'
  unfold putField
  rw [hl]
  exact (setCell_layer hid (.object (its.put k x))).2.2

theorem Tells.putField (h : s.Tells i (.object es)) (hP : s.Region (s.Reaches i))
    (hg : s.Grows s') (k : String) (a : Scalar) :
    (s'.putField i k (.leaf a)).Tells i (.object (es.put k (.scalar a))) := by
  have hagree : s.Agrees (s.Reaches i) s' := hP.agrees hg
  have hrel := (tells_mirrors s).layer i _ h
  change Layer.Rel _ (s.layer i) (.object es) at hrel
  generalize hl : s.layer i = l at hrel
  cases hrel with
  | @object its _ entries =>
    have hl' : s'.layer i = .object its := (hagree.layer (s.in_reaches i)).trans hl
    obtain ⟨id,rfl,-⟩ := cell_of_isContainer (by rw [hl]; rfl : (s.layer i).isContainer = true)
    obtain ⟨d,-,hd⟩ := h
    have part {e : String × Item} {v : Value} (he : e ∈ its) (hv : s.Tells e.2 v) :
        (s'.putField (.cell id) k (.leaf a)).Tells e.2 v := by
      have hbelow : e.2 ∈ (s.layer (.cell id)).below := by
        rw [hl]
        exact List.mem_map_of_mem he
      have hreach {n : Nat} (hn : s.Reaches e.2 n) : s.Reaches (.cell id) n := .further hbelow hn
      have hregion : s.Region (s.Reaches e.2) :=
        ⟨fun n hn => hP.bounded n (hreach hn),s.encloses_reaches e.2⟩
      refine (TellsIn.of_agrees ⟨s.in_reaches e.2,hv⟩ hregion fun n hn => ?_).2
      have hne : n ≠ id := by
        rintro rfl
        exact not_reaches_of_readTo hd hbelow hn
      exact (putField_cells hl' k (.leaf a) n hne).trans (hagree n (hreach hn))
    refine tells_object (layer_putField hl' k (.leaf a)).1 (Entries.forall₂_put ?_ k ?_)
    · have hmem := (List.forall₂_and_left its es).2 ⟨fun _ he => he,entries⟩
      exact hmem.imp fun e f hef => ⟨hef.2.1,part hef.1 hef.2.2⟩
    · exact (tells_mirrors _).leaf a

end Store

namespace Attempt

variable {σ α β γ : Type} {p : Attempt σ α} {g : α → β} {s : σ} {r : Except Fault β}

theorem exec_map_eq (h : (g <$> p).exec s = (r,s)) :
    (∃ x, p.exec s = (.ok x,s) ∧ r = .ok (g x)) ∨ ∃ e, p.exec s = (.error e,s) ∧ r = .error e := by
  rw [exec_map] at h
  obtain ⟨rfl,hs⟩ := Prod.mk.inj h
  rcases hp : p.exec s with ⟨e | x,s'⟩ <;> rw [hp] at hs <;> cases hs
  · exact .inr ⟨e,rfl,rfl⟩
  · exact .inl ⟨x,rfl,rfl⟩

theorem exec_mapM_map {ι : Type} {f : ι → Attempt σ α} {told : ι → Except Fault β} {is : List ι}
    (h : ∀ i ∈ is, (g <$> f i).exec s = (told i,s)) :
    (List.map g <$> is.mapM f).exec s = (is.mapM told,s) := by
  induction is with
  | nil => rfl
  | cons i is ih =>
    obtain ⟨hi,hrest⟩ := List.forall_mem_cons.1 h
    rw [exec_map,List.mapM_cons,List.mapM_cons]
    rcases exec_map_eq hi with ⟨x,hx,htold⟩ | ⟨e,he,htold⟩
    · rw [exec_bind_ok hx,htold]
      rcases exec_map_eq (ih hrest) with ⟨xs,hxs,htold⟩ | ⟨e,he,htold⟩
      · rw [exec_bind_ok hxs,htold]
        rfl
      · rw [exec_bind_error he,htold]
        rfl
    · rw [exec_bind_error he,htold]
      rfl

end Attempt

namespace Steps

variable {run : Run} {node : Step Item} {config context : Value} {further : List Value}
  {w w' : World} {o : Outcome}

section Asked

variable (hcontext : w.store.Tells run.context context)

include hcontext

theorem exec_check (path : String) (operator expected : Value) :
    (Checked.met <$> check run path operator expected).exec w =
      (Condition.test (context.lookup path) operator expected,w) := by
  have hread : w.store.read (w.store.lookup run.context path) = .ok (context.lookup path) := by
    have hfound := (Store.tells_mirrors w.store).lookup hcontext path
    change w.store.read (Item.ofOption (Path.lookup w.store.view run.context path)) =
      .ok (Value.ofOption (Path.lookup Value.view context path))
    change Option.Rel _ (Path.lookup w.store.view run.context path)
      (Path.lookup Value.view context path) at hfound
    generalize Path.lookup w.store.view run.context path = x,
      Path.lookup Value.view context path = y at hfound
    cases hfound with
    | none => rfl
    | some h => exact h.read
  have hcheck : (check run path operator expected).exec w =
      ((Condition.test (context.lookup path) operator expected).map fun met =>
        ⟨path,operator,expected,w.store.lookup run.context path,met⟩,w) := by
    unfold check
    rw [exec_bind_ok (rfl : Work.store.exec w = (.ok w.store,w)),exec_bind_ok (exec_read hread)]
    cases Condition.test (context.lookup path) operator expected <;> rfl
  rw [exec_map,hcheck]
  cases Condition.test (context.lookup path) operator expected <;> rfl

theorem exec_question {operator : Value} (path : Value) (ho : TextOrNone operator) (expected : Value) :
    (Checked.met <$> check run (barePath (settingText path)) (operator.orElse (.text "exists"))
      expected).exec w = ((question context path operator expected).answer,w) := by
  rw [exec_check hcontext,Condition.test,ho.operator]
  rfl

theorem exec_checkMain (h : Conditional config further) :
    (Checked.met <$> checkMain run config).exec w = ((mainQuestion context config).answer,w) := by
  have hpath : Textual config ["fieldPath","jsonPath","checkField"] := h.main.mono (by simp)
  have hop : Textual config ["operator","conditionType"] := h.main.mono (by simp)
  unfold checkMain
  rw [hpath.firstSetting.cleanPath]
  exact exec_question hcontext _ hop.firstSetting _

theorem exec_checkFurther {c : Value} (hc : c.isObject = true)
    (h : Textual c ["jsonPath","fieldPath","operator"]) :
    (Checked.met <$> checkFurther run c).exec w = ((furtherQuestion context c).answer,w) := by
  have hpath : Textual c ["jsonPath","fieldPath"] := h.mono (by simp)
  unfold checkFurther
  rw [FieldFunction.member_eq hc,hpath.firstSetting.cleanPath]
  exact exec_question hcontext _ (h "operator" (by simp)) _

theorem exec_mapM_checkFurther (h : Conditional config further) :
    (List.map Checked.met <$> further.mapM (checkFurther run)).exec w =
      (further.mapM fun c => (furtherQuestion context c).answer,w) :=
  exec_mapM_map fun c hc => exec_checkFurther hcontext (h.objects c hc) (h.each c hc)

end Asked

def judge (run : Run) (config : Value) : Work (Checked × List Checked × Bool) := do
  let main ← checkMain run config
  let further ← (← Work.of (config.field "additionalConditions").optionalParts).mapM
    (checkFurther run)
  let met ←
    if further.isEmpty then pure main.met
    else Work.of (combined config (main.met :: further.map Checked.met))
  return (main,further,met)

def report (name : Value) (main : Checked) (further : List Checked) (met : Bool) : Work Item := do
  let results ← further.mapM fun c => do Work.newObject (← c.entries c.met)
  let additional ←
    if further.isEmpty then pure []
    else pure [("additionalResults",← Work.newList results)]
  Work.newObject ((← main.entries met) ++ [("storeResultAs",← Work.plant name)] ++ additional)

def conclude (run : Run) (name : Value) (judged : Checked × List Checked × Bool) :
    Work Outcome := do
  let output ← report name judged.1 judged.2.1 judged.2.2
  run.setNamed name (.bool judged.2.2)
  return { output := output,handle := if judged.2.2 then successHandle else failureHandle }

theorem conditionalCheck_eq (run : Run) (node : Step Item) :
    conditionalCheck run node = Work.read node.config >>= fun config =>
      judge run config >>= conclude run (verdictName config node.id) := by
  unfold conditionalCheck judge conclude report
  refine congrArg _ (funext fun config => ?_)
  simp only [bind_assoc,pure_bind]
  refine congrArg _ (funext fun main => congrArg _ (funext fun parts => congrArg _
    (funext fun further => ?_)))
  cases hf : further.isEmpty with
  | true =>
    simp only [hf,if_true,bind_assoc,pure_bind]
    rfl
  | false =>
    simp only [hf,Bool.false_eq_true,if_false,bind_assoc,pure_bind]
    rfl

theorem exec_judge (hcontext : w.store.Tells run.context context)
    (h : Conditional config further) :
    ((fun judged => judged.2.2) <$> judge run config).exec w =
      (ruling config (questions context config further),w) := by
  rw [exec_map,judge,ruling,questions,List.mapM_cons,List.mapM_map]
  rcases exec_map_eq (exec_checkMain hcontext h) with ⟨main,hmain,htold⟩ | ⟨e,he,htold⟩
  · rw [exec_bind_ok hmain,htold,h.listed]
    have hparts : (Work.of (.ok further) : Work (List Value)).exec w = (.ok further,w) := rfl
    rw [exec_bind_ok hparts]
    rcases exec_map_eq (exec_mapM_checkFurther hcontext h) with
      ⟨checks,hchecks,htold⟩ | ⟨e,he,htold⟩
    · have hothers : further.mapM (Question.answer ∘ furtherQuestion context) = _ := htold
      rw [exec_bind_ok hchecks,hothers]
      cases checks with
      | nil => rfl
      | cons c checks =>
        change _ = (combined config (main.met :: (c :: checks).map Checked.met),w)
        simp only [List.isEmpty_cons,Bool.false_eq_true,if_false]
        cases combined config (main.met :: (c :: checks).map Checked.met) <;> rfl
    · have hothers : further.mapM (Question.answer ∘ furtherQuestion context) = _ := htold
      rw [exec_bind_error he,hothers]
      rfl
  · rw [exec_bind_error he,htold]
    rfl

def NeverFails {α : Type} (p : Work α) : Prop := ∀ w, ∃ x w', p.exec w = (.ok x,w')

theorem NeverFails.closed : Closed NeverFails where
  pure x w := ⟨x,w,rfl⟩
  bind hp hf w := by
    obtain ⟨x,w₁,hx⟩ := hp w
    obtain ⟨y,w₂,hy⟩ := hf x w₁
    exact ⟨y,w₂,(exec_bind_ok hx _).trans hy⟩

theorem NeverFails.plant (v : Value) : NeverFails (Work.plant v) := fun _ => ⟨_,_,rfl⟩

theorem NeverFails.newObject (es : Entries Item) : NeverFails (Work.newObject es) := fun _ => ⟨_,_,rfl⟩

theorem NeverFails.newList (xs : List Item) : NeverFails (Work.newList xs) := fun _ => ⟨_,_,rfl⟩

theorem entries_neverFails (c : Checked) (met : Bool) : NeverFails (c.entries met) :=
  NeverFails.closed.bind (.plant _) fun _ =>
    NeverFails.closed.bind (.plant _) fun _ => NeverFails.closed.pure _

theorem report_neverFails (name : Value) (main : Checked) (further : List Checked) (met : Bool) :
    NeverFails (report name main further met) := by
  unfold report
  have each : NeverFails (further.mapM fun c => do Work.newObject (← c.entries c.met)) :=
    NeverFails.closed.mapM fun c _ => NeverFails.closed.bind (entries_neverFails c _) fun _ => .newObject _
  refine NeverFails.closed.bind each fun results => ?_
  extract_lets rest
  have written (additional : Entries Item) : NeverFails (rest additional) :=
    NeverFails.closed.bind (entries_neverFails main met) fun _ =>
      NeverFails.closed.bind (.plant _) fun _ => .newObject _
  split
  · exact written _
  · exact NeverFails.closed.bind (.newList _) fun _ => written _

theorem entries_onward (c : Checked) (met : Bool) : Keeps Onward (c.entries met) :=
  (Onward.plant _).bind fun _ => (Onward.plant _).bind fun _ => Keeps.closed.pure _

theorem newList_onward (xs : List Item) : Keeps Onward (Work.newList xs) :=
  (Alone.edit _).onward (AppendOnly.newList xs).toGrowsStore

theorem entries_ok {c : Checked} {met : Bool} {es : Entries Item}
    (h : (c.entries met).exec w = (.ok es,w')) :
    ∃ more, es = ("conditionMet",.bool met) :: more := by
  obtain ⟨operator,w₁,-,h⟩ := exec_bind_eq_ok h
  obtain ⟨expected,w₂,-,h⟩ := exec_bind_eq_ok h
  cases h
  exact ⟨_,rfl⟩

theorem newObject_layer {es : Entries Item} {i : Item} {w₁ : World} (hw : Onward w w₁)
    (h : (Work.newObject es).exec w₁ = (.ok i,w')) : w.store.layer i = .scalar .null := by
  cases h
  have hsize := hw.2.size_le
  change Store.layer w.store (.cell w₁.store.cells.size) = _
  rw [Store.layer,Array.getElem?_eq_none hsize]

theorem field_conditionMet {s : Store} {i : Item} {met : Bool} {more : Entries Item}
    (h : s.entries i = ("conditionMet",.bool met) :: more) :
    s.field i "conditionMet" = .bool met := by
  unfold Store.entries at h
  split at h
  · rename_i hl
    rw [Store.field_of_layer hl,h]
    rfl
  · cases h

theorem report_ok {name : Value} {main : Checked} {further : List Checked} {met : Bool} {i : Item}
    (h : (report name main further met).exec w = (.ok i,w')) :
    Onward w w' ∧ w.store.layer i = .scalar .null ∧
      w'.store.field i "conditionMet" = .bool met := by
  unfold report at h
  have results : Keeps Onward (further.mapM fun c => do Work.newObject (← c.entries c.met)) :=
    Keeps.closed.mapM fun c _ => (entries_onward c _).bind fun _ => Onward.newObject _
  obtain ⟨found,w₁,hw,h⟩ := results.ahead h
  extract_lets rest at h
  have written {additional : Entries Item} {w₂ : World} (hw : Onward w w₂)
      (h : (rest additional).exec w₂ = (.ok i,w')) : Onward w w' ∧
        w.store.layer i = .scalar .null ∧ w'.store.field i "conditionMet" = .bool met := by
    obtain ⟨es,w₃,hes,h⟩ := exec_bind_eq_ok h
    have hw₃ := (entries_onward main met) w₂
    rw [hes] at hw₃
    obtain ⟨more,rfl⟩ := entries_ok hes
    obtain ⟨shown,w₄,hw₄,h⟩ := (Onward.plant name).further (trans_of Onward hw hw₃) h
    obtain ⟨hentries,hw'⟩ := newObject_ok h
    exact ⟨trans_of Onward hw₄ hw',newObject_layer hw₄ h,field_conditionMet hentries⟩
  split at h
  · exact written hw h
  · obtain ⟨listed,w₂,hw₂,h⟩ := (newList_onward found).further hw h
    exact written hw₂ h

theorem noteName_neverFails (run : Run) (name : Value) (w : World) :
    ∃ w', (run.noteName name).exec w = (.ok (),w') ∧ w'.store = w.store := by
  unfold Run.noteName
  split
  · exact ⟨w,rfl,rfl⟩
  · exact ⟨_,rfl,rfl⟩

theorem setNamed_exec (run : Run) {name : Value} {key : String} (hkey : Edit.keyOf name = .ok key)
    (x : Item) (w : World) : ∃ w', (run.setNamed name x).exec w = (.ok (),w') ∧
      w'.store = w.store.putField run.context key x := by
  obtain ⟨w',hw',hstore⟩ := noteName_neverFails run name
    { w with store := w.store.putField run.context key x }
  refine ⟨w',?_,hstore⟩
  unfold Run.setNamed
  rw [hkey]
  exact hw'

/-- How a step ends that was judged: a report, the one write to the context, and the handle. -/
structure Concludes (run : Run) (key : String) (met : Bool) (w : World) (o : Outcome)
    (w' : World) : Prop where
  handle : o.handle = if met then successHandle else failureHandle
  output : w.store.layer o.output = .scalar .null
  ended : ∃ s, w.store.Grows s ∧ s.field o.output "conditionMet" = .bool met ∧
    w'.store = s.putField run.context key (.bool met)

theorem conclude_ok {name : Value} {judged : Checked × List Checked × Bool}
    (h : (conclude run name judged).exec w = (.ok o,w')) :
    ∃ key, Edit.keyOf name = .ok key ∧ Concludes run key judged.2.2 w o w' := by
  obtain ⟨output,w₁,houtput,h⟩ := exec_bind_eq_ok h
  obtain ⟨hw,hnew,hmet⟩ := report_ok houtput
  obtain ⟨⟨⟩,w₂,hset,h⟩ := exec_bind_eq_ok h
  cases h
  cases hkey : Edit.keyOf name with
  | error e =>
    unfold Run.setNamed at hset
    rw [hkey] at hset
    cases hset
  | ok key =>
    obtain ⟨w₃,hexec,hstore⟩ := setNamed_exec run hkey (.bool judged.2.2) w₁
    obtain ⟨-,rfl⟩ := Prod.mk.inj (hset.symm.trans hexec)
    exact ⟨key,rfl,⟨rfl,hnew,_,hw.2,hmet,hstore⟩⟩

theorem conclude_neverFails {name : Value} {key : String} (hkey : Edit.keyOf name = .ok key)
    (judged : Checked × List Checked × Bool) (w : World) :
    ∃ o w', (conclude run name judged).exec w = (.ok o,w') := by
  obtain ⟨output,w₁,houtput⟩ := report_neverFails name judged.1 judged.2.1 judged.2.2 w
  obtain ⟨w₂,hset,-⟩ := setNamed_exec run hkey (.bool judged.2.2) w₁
  unfold conclude
  rw [exec_bind_ok houtput,exec_bind_ok hset]
  exact ⟨_,_,rfl⟩

/-- What a step leaves that completes with a verdict. -/
structure Decided (run : Run) (es : Entries Value) (key : String) (b : Bool) (w : World)
    (o : Outcome) (w' : World) : Prop where
  handle : o.handle = if b then successHandle else failureHandle
  output : w'.store.field o.output "conditionMet" = .bool b
  context : w'.store.Tells run.context (.object (es.put key (.bool b)))
  others : ∀ j, w.store.isContainer j = true → j ≠ run.context →
    w'.store.layer j = w.store.layer j

section Run

variable {es : Entries Value} {key : String} {b : Bool}
  (hcontext : w.store.Tells run.context (.object es))
  (hregion : w.store.Region (w.store.Reaches run.context))

include hcontext hregion

theorem Concludes.decided (h : Concludes run key b w o w') : Decided run es key b w o w' := by
  obtain ⟨s,hg,hmet,hstore⟩ := h.ended
  obtain ⟨its,hl⟩ := Store.layer_of_isObject hcontext.isObject
  have hl' : s.layer run.context = .object its :=
    ((hregion.agrees hg).layer (w.store.in_reaches run.context)).trans hl
  obtain ⟨-,hothers⟩ := Store.layer_putField hl' key (.bool b)
  refine ⟨h.handle,?_,?_,fun j hj hne => ?_⟩
  · have hne : o.output ≠ run.context := by
      intro he
      have hnull := h.output
      rw [he,hl] at hnull
      cases hnull
    rw [hstore,Store.field_congr (hothers _ hne)]
    exact hmet
  · rw [hstore]
    exact hcontext.putField hregion hg key (.bool b)
  · rw [hstore,hothers j hne]
    exact hg.layer_of_isContainer hj

theorem conditionalCheck_ok (hconfig : w.store.Tells node.config config)
    (h : Conditional config further)
    (ho : (conditionalCheck run node).exec w = (.ok o,w')) :
    ∃ key b, Edit.keyOf (verdictName config node.id) = .ok key ∧
      ruling config (questions (.object es) config further) = .ok b ∧
      Decided run es key b w o w' := by
  rw [conditionalCheck_eq,exec_bind_ok (exec_read hconfig.read)] at ho
  change (judge run config >>= conclude run (verdictName config node.id)).exec w = _ at ho
  obtain ⟨judged,w₁,hjudge,hend⟩ := exec_bind_eq_ok ho
  rcases exec_map_eq (exec_judge hcontext h) with ⟨x,hx,hruling⟩ | ⟨e,he,-⟩
  · obtain ⟨hj,rfl⟩ := Prod.mk.inj (hjudge.symm.trans hx)
    cases hj
    obtain ⟨key,hkey,hends⟩ := conclude_ok hend
    exact ⟨key,_,hkey,hruling,hends.decided hcontext hregion⟩
  · cases hjudge.symm.trans he

theorem conditionalCheck_ok_iff (hconfig : w.store.Tells node.config config)
    (h : Conditional config further) :
    (∃ o w', (conditionalCheck run node).exec w = (.ok o,w')) ↔
      (∃ b, ruling config (questions (.object es) config further) = .ok b) ∧
      ∃ key, Edit.keyOf (verdictName config node.id) = .ok key := by
  constructor
  · rintro ⟨o,w',ho⟩
    obtain ⟨key,b,hkey,hb,-⟩ := conditionalCheck_ok hcontext hregion hconfig h ho
    exact ⟨⟨b,hb⟩,key,hkey⟩
  · rintro ⟨⟨b,hb⟩,key,hkey⟩
    rw [conditionalCheck_eq,exec_bind_ok (exec_read hconfig.read)]
    rcases exec_map_eq (exec_judge hcontext h) with ⟨judged,hjudged,-⟩ | ⟨e,-,hruling⟩
    · rw [exec_bind_ok hjudged]
      exact conclude_neverFails hkey judged w
    · cases hb.symm.trans hruling

end Run

/-- A branching step completes exactly if all its conditions can be decided, the word that combines
several of them can be written, and the name of the result can be one. Then one truth value is in
its output, in its handle and under that name in the context, which is changed in nothing else: the
verdict on the conditions, in whichever order they are configured. -/
theorem conditionalCheck_decides {es : Entries Value}
    (hconfig : w.store.Tells node.config config)
    (hcontext : w.store.Tells run.context (.object es))
    (hregion : w.store.Region (w.store.Reaches run.context)) (h : Conditional config further) :
    ((∃ o w', (conditionalCheck run node).exec w = (.ok o,w')) ↔
      (∀ q ∈ questions (.object es) config further, q.Settled) ∧
      (further ≠ [] → (logicalOperator config).Writable) ∧
      ∃ key, Edit.keyOf (verdictName config node.id) = .ok key) ∧
    ∀ o w', (conditionalCheck run node).exec w = (.ok o,w') → ∃ key b,
      Edit.keyOf (verdictName config node.id) = .ok key ∧
      (b = true ↔ Verdict config (questions (.object es) config further)) ∧
      Decided run es key b w o w' ∧
      ∀ node' config' further', node'.id = node.id → w.store.Tells node'.config config' →
        Conditional config' further' → Reordered config config' further further' →
        ∃ o' w'', (conditionalCheck run node').exec w = (.ok o',w'') ∧
          Decided run es key b w o' w'' := by
  have hlength : (questions (.object es) config further).length ≠ 1 ↔ further ≠ [] := by
    simp [questions]
  have hsettled := conditionalCheck_ok_iff hcontext hregion hconfig h
  refine ⟨?_,fun o w' ho => ?_⟩
  · rw [hsettled,ruling_ok_iff,hlength,and_assoc]
  · obtain ⟨key,b,hkey,hb,hdecided⟩ := conditionalCheck_ok hcontext hregion hconfig h ho
    refine ⟨key,b,hkey,ruling_iff hb,hdecided,?_⟩
    -- the reordered step asks the same questions in another order, so its verdict is the same
    intro node' config' further' hid hconfig' h' hr
    have hname : verdictName config' node'.id = verdictName config node.id := by
      rw [verdictName,verdictName,hr.others _ (by simp),hid]
    have hword : logicalOperator config' = logicalOperator config := by
      rw [logicalOperator,logicalOperator,hr.others _ (by simp)]
    have hruling : ∃ b', ruling config' (questions (.object es) config' further') = .ok b' := by
      rw [ruling_ok_iff,hword,(hr.questions _).length_eq]
      obtain ⟨hall,hword⟩ := (ruling_ok_iff _ _).1 ⟨b,hb⟩
      exact ⟨fun q hq => hall q ((hr.questions _).mem_iff.1 hq),hword⟩
    obtain ⟨o',w'',ho'⟩ := (conditionalCheck_ok_iff hcontext hregion hconfig' h').2
      ⟨hruling,key,hname ▸ hkey⟩
    obtain ⟨key',b',hkey',hb',hdecided'⟩ := conditionalCheck_ok hcontext hregion hconfig' h' ho'
    obtain rfl : key' = key := Except.ok.inj ((hname ▸ hkey').symm.trans hkey)
    obtain rfl : b' = b := hr.ruling hb hb'
    exact ⟨o',w'',ho',hdecided'⟩

def tagCondition : Value :=
  .object [("jsonPath",.text "tags[0]"),("operator",.text "ne"),("expectedValue",.text "t")]

def tagConfig : Value :=
  .object [("fieldPath",.text "\x7b\x7bname\x7d\x7d"),("operator",.text "equals"),
    ("expectedValue",.text "x"),("logicalOperator",.text "or"),
    ("additionalConditions",.list [tagCondition])]

def tagEntries : Entries Value := [("name",.text "x"),("tags",.list [.text "t"])]

def tagWorld : World where
  store := ⟨#[.list [.text "t"],.object [("name",.text "x"),("tags",.cell 0)],
    .object [("jsonPath",.text "tags[0]"),("operator",.text "ne"),("expectedValue",.text "t")],
    .list [.cell 2],
    .object [("fieldPath",.text "\x7b\x7bname\x7d\x7d"),("operator",.text "equals"),
      ("expectedValue",.text "x"),("logicalOperator",.text "or"),
      ("additionalConditions",.cell 3)]]⟩

def tagRun : Run := { context := .cell 1 }

def tagStep : Step Item := { id := "n",type := "conditional_check",config := .cell 4 }

theorem conditionalCheck_decides_tag :
    ∃ o w', (conditionalCheck tagRun tagStep).exec tagWorld = (.ok o,w') ∧
      Decided tagRun tagEntries "condition_n_result" true tagWorld o w' := by
  have hconfig : tagWorld.store.Tells tagStep.config tagConfig :=
    Store.tells_of_readTo (d := 4) rfl
  have hspells : tagWorld.store.Spells 2 (.object tagEntries) tagRun.context :=
    .object (by decide) rfl (.cons (.leaf _ _)
      (.cons (.list (by decide) rfl (.cons (.leaf _ _) (.nil _))) (.nil _)))
  have hcontext : tagWorld.store.Tells tagRun.context (.object tagEntries) :=
    Store.tells_of_readTo (d := 3) rfl
  have hregion : tagWorld.store.Region (tagWorld.store.Reaches tagRun.context) :=
    ⟨fun id hid => Nat.lt_of_lt_of_le (hspells.reaches_lt hid) (by decide),
      tagWorld.store.encloses_reaches _⟩
  have hconditional : Conditional tagConfig [tagCondition] := by
    refine ⟨?_,rfl,fun c hc => ?_,fun c hc => ?_⟩
    · simp only [Textual,List.forall_mem_cons,List.not_mem_nil,false_imp_iff,implies_true,and_true]
      exact ⟨.inr ⟨_,rfl⟩,.inl rfl,.inl rfl,.inr ⟨_,rfl⟩,.inl rfl⟩
    · obtain rfl := List.mem_singleton.1 hc
      rfl
    · obtain rfl := List.mem_singleton.1 hc
      simp only [Textual,List.forall_mem_cons,List.not_mem_nil,false_imp_iff,implies_true,and_true]
      exact ⟨.inr ⟨_,rfl⟩,.inl rfl,.inr ⟨_,rfl⟩⟩
  obtain ⟨hcompletes,hdecides⟩ := conditionalCheck_decides hconfig hcontext hregion hconditional
  have hsettled : ∀ q ∈ questions (.object tagEntries) tagConfig [tagCondition], q.Settled :=
    List.forall_mem_cons.2 ⟨⟨rfl,rfl⟩,List.forall_mem_cons.2 ⟨⟨rfl,rfl⟩,by simp⟩⟩
  obtain ⟨o,w',ho⟩ := hcompletes.2 ⟨hsettled,fun _ => rfl,_,rfl⟩
  obtain ⟨key,b,hkey,hverdict,hdecided,-⟩ := hdecides o w' ho
  have htrue : Verdict tagConfig (questions (.object tagEntries) tagConfig [tagCondition]) :=
    ⟨fun _ => ⟨_,List.mem_cons_self,rfl⟩,fun hn => absurd (by decide +kernel) hn⟩
  obtain rfl : "condition_n_result" = key := Except.ok.inj hkey
  rw [hverdict.2 htrue] at hdecided
  exact ⟨o,w',ho,hdecided⟩

end Steps

end StepGraph
