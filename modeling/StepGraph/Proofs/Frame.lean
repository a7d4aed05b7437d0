import StepGraph.Proofs.Account
import StepGraph.Proofs.PlantedGraph
import StepGraph.Proofs.VisitCustody

/-!
What a visit leaves alone. A step that is passed over, or that fails as a step, changes neither the
context nor the last response, however deep one looks; the record of the failed run repeats what
was noted when the visit began.
-/
namespace StepGraph

open Attempt

def Trip.ApartFrom (as : List Item) (t : Trip) : Prop :=
  t.world.store.Apart as [t.run.context,t.run.last]

namespace Visit

variable {α : Type} {as : List Item} {n : Step Item}

theorem fits_separating {c : Item} (hn : n.config ∈ as) : (Custody.separating as c).Fits n where
  allows _ _ _ _ _ _ _ _ := trivial
  parts _ run live scope filename w hw := by
    obtain ⟨P,hlive,hg⟩ := hw.symm
    have hs := (Steps.formParts_spares P run hn scope filename w hg).1
    have ha := Store.Apart.symm ⟨P,hlive,hs⟩
    exact ⟨trivial,ha,fun _ _ => ha⟩

theorem over_separating {t : Trip} :
    (Custody.separating as t.run.context).Over t ↔ t.ApartFrom as := by
  have swap (i j : Item) : t.world.store.Apart as [i,j] → t.world.store.Apart as [j,i] :=
    fun h => h.mono (fun _ hi => hi) fun _ hi => by simpa [or_comm] using hi
  exact ⟨fun h => swap _ _ h.store,fun h => ⟨rfl,swap _ _ h⟩⟩

/-- The run holds the same context and the same last response, and they read the same at every
depth. -/
structure Spared (t t' : Trip) : Prop where
  run : t'.run = t.run
  context : ∀ d, t'.world.store.readTo d t.run.context = t.world.store.readTo d t.run.context
  last : ∀ d, t'.world.store.readTo d t.run.last = t.world.store.readTo d t.run.last

/-- A step was passed over, or failed as a step; the state behind its opening, and whether it
failed. -/
inductive PassedOrFailed (n : Step Item) (t t₁ : Trip) : Prop
  | skipped (reason : String) (opened : (opening n).exec t = (.ok (some reason),t₁))
  | failed (f : StepFailure) (t₂ : Trip) (opened : (opening n).exec t = (.ok none,t₁))
      (raised : (perform n).exec t₁ = (.error (.step f),t₂))

/-- The record of the run that is closed as failed has the context that it had when the visit
began. -/
def Repeats (id : Int) (began ended : Trip) : Prop :=
  ∃ before after, began.row? id = some before ∧ ended.row? id = some after ∧
    after.status = "failed" ∧ after.context = before.context

theorem spared_of_agrees {P : Nat → Prop} {t t' : Trip} (hr : t'.run = t.run)
    (hP : t.world.store.Region P) (hlive : ∀ i ∈ [t.run.context,t.run.last], i.In P)
    (ha : t.world.store.Agrees P t'.world.store) : Spared t t' where
  run := hr
  context := hP.readTo_eq ha (hlive _ List.mem_cons_self)
  last := hP.readTo_eq ha (hlive _ (List.mem_cons_of_mem _ List.mem_cons_self))

/-- Two deep reads of one item of a region agree, whatever else happened in between. -/
theorem read_eq {P : Nat → Prop} {s s' : Store} (hP : s.Region P) (ha : s.Agrees P s') {i : Item}
    (hi : i.In P) {v v' : Value} (hv : s.read i = .ok v) (hv' : s'.read i = .ok v') : v = v' := by
  have some_of {s : Store} {v : Value} (h : s.read i = .ok v) :
      s.readTo (s.cells.size + 1) i = some v := by
    unfold Store.read Store.read? at h
    split at h
    · rename_i w hw
      cases h
      exact hw
    · cases h
  have h := hP.readTo_mono ha (Nat.le_max_left _ (s'.cells.size + 1)) hi (some_of hv)
  have h' := (hP.of_agrees ha).readTo_mono (fun _ _ => rfl) (Nat.le_max_right (s.cells.size + 1) _)
    hi (some_of hv')
  exact Option.some.inj (h.symm.trans h')

theorem step_of_raised {t t₁ t₂ : Trip} {f : Fault} (opened : (opening n).exec t = (.ok none,t₁))
    (raised : (perform n).exec t₁ = (.error f,t₂)) :
    (step n).exec t = (failed n f).exec t₂ := by
  rw [step_eq,exec_bind_ok opened]
  change (settle n).exec t₁ = _
  unfold settle
  rw [exec_bind,exec_caught,raised]

theorem passedOrFailed_spares (P : Nat → Prop) (hn : n.config ∈ as) {t t₁ : Trip}
    (h : PassedOrFailed n t t₁) : ((step n).exec t).2.run = t.run ∧
      Store.Spares P as t.world.store ((step n).exec t).2.world.store := by
  have hopen := around_beside.opening n t
  cases h with
  | skipped reason opened =>
    rw [opened] at hopen
    rw [step_eq,exec_bind_ok opened]
    have hb : Beside t ((skip n reason).exec t₁).2 :=
      trans_of Beside hopen (around_beside.skip n reason t₁)
    exact ⟨hb.1,hb.2.spares⟩
  | failed f t₂ opened raised =>
    rw [opened] at hopen
    rw [step_of_raised opened raised]
    obtain ⟨hr,hs⟩ := perform_spares P hn raised
    have hf := around_beside.failed n (.step f) t₂
    refine ⟨hf.1.trans (hr.trans hopen.1),?_⟩
    exact trans_of (Store.Spares P as) hopen.2.spares
      (trans_of (Store.Spares P as) hs hf.2.spares)

theorem step_spared (hn : n.config ∈ as) {t t₁ : Trip} (ht : t.ApartFrom as)
    (h : PassedOrFailed n t t₁) :
    Spared t ((step n).exec t).2 := by
  obtain ⟨P,hlive,hg⟩ := ht.symm
  obtain ⟨hr,hs⟩ := passedOrFailed_spares P hn h
  exact spared_of_agrees hr hg.sealed hlive (hs hg).2

theorem step_repeats (hn : n.config ∈ as) {t t₁ t₂ : Trip} {f : StepFailure} (ht : t.ApartFrom as)
    (opened : (opening n).exec t = (.ok none,t₁))
    (raised : (perform n).exec t₁ = (.error (.step f),t₂)) {id : Int} (hid : t.log? = some id)
    (hlost : ((step n).exec t).2.lost = t.lost) : Repeats id t₁ ((step n).exec t).2 := by
  obtain ⟨P,hlive,hg⟩ := ht.symm
  obtain ⟨hle,ho⟩ := opening_unless n t
  obtain ⟨hle₁,-⟩ := perform_unless n t₁
  obtain ⟨hle₂,hf⟩ := failed_unless n (.step f) t₂
  have hopen := around_beside.opening n t
  rw [opened] at hle ho hopen
  rw [raised] at hle₁
  rw [step_of_raised opened raised] at hlost ⊢
  simp only at hle ho hle₁
  obtain ⟨hr,hs⟩ := perform_spares P hn raised
  have hid₂ : t₂.log? = some id := by
    rw [Trip.log?,hr,hopen.1]
    exact hid
  obtain ⟨-,v,now,hv,hw⟩ := ho (by omega) id hid
  obtain ⟨⟨-,row,t₃,hadd,-,-,-,v₃,now₃,now',hv₃,hw₃⟩,-⟩ := hf (by omega) id hid₂
  have hrun : t₃.run = t.run := hadd.run.trans (hr.trans hopen.1)
  rw [hrun] at hv₃
  have hspares : Store.Spares P as t.world.store t₃.world.store :=
    trans_of (Store.Spares P as) hopen.2.spares
      (trans_of (Store.Spares P as) hs hadd.grows.spares)
  obtain rfl := read_eq hg.sealed (hspares hg).2 (hlive _ List.mem_cons_self) hv hv₃
  obtain ⟨old,-,hnew⟩ := hw.row
  obtain ⟨old₃,-,hnew₃⟩ := hw₃.row
  exact ⟨_,_,hnew,hnew₃,rfl,rfl⟩

theorem trail_apart {g : Graph Item} {t t' : Trip} {target next : Option String}
    {stops : List (Stop Trip Item)} (h : g.Trail step t target stops t' next)
    (ht : t.ApartFrom (Graph.configs g.nodes)) :
    ∀ st ∈ stops, st.before.ApartFrom (Graph.configs g.nodes) := by
  have hfits : ∀ st ∈ stops, ∀ n, st.node = .step n →
      (Custody.separating (Graph.configs g.nodes) t.run.context).Fits n := by
    rintro ⟨_,_,_,_,_⟩ hst n rfl
    exact fits_separating (Graph.mem_configs (h.isOf _ hst).1)
  obtain ⟨hpass,-⟩ := trail_passes h hfits (over_separating.2 ht)
  intro st hst
  have hover := (hpass st hst).still
  rw [← hover.context] at hover
  exact over_separating.1 hover

/-- Wherever a run goes in a graph, a visit whose step is passed over, or fails as a step, leaves the
context and the last response as they were, however deep one looks. The record of a failed run then
has the context that was noted when the visit began. What is known of the run is only that its
containers stand in the store. -/
theorem walk_frame (g : Graph Value) (w : World) (run : Run) {P : Nat → Prop}
    (hP : w.store.Region P) (hrun : ∀ i ∈ [run.context,run.last], i.In P)
    {target next : Option String} {stops : List (Stop Trip Item)} {t' : Trip}
    (h : (g.plant w.store).2.Trail step ⟨{ w with store := (g.plant w.store).1 },run⟩ target stops
      t' next) :
    ∀ st ∈ stops, ∀ n, st.node = .step n → ∀ t₁,
      (∀ reason, (opening n).exec st.before = (.ok (some reason),t₁) →
        Spared st.before st.after) ∧
      ∀ f t₂, (opening n).exec st.before = (.ok none,t₁) →
        (perform n).exec t₁ = (.error (.step f),t₂) →
          Spared st.before st.after ∧ ∀ id, st.before.log? = some id →
            st.after.lost = st.before.lost → Repeats id t₁ st.after := by
  have start : Trip.ApartFrom (Graph.configs (g.plant w.store).2.nodes)
      ⟨{ w with store := (g.plant w.store).1 },run⟩ := Graph.plant_apart hP hrun g
  rintro ⟨target,_,before,after,exit⟩ hst n rfl t₁
  have ht := trail_apart h start _ hst
  obtain ⟨hget,hv⟩ := h.isOf _ hst
  have hn := Graph.mem_configs hget
  obtain rfl : ((step n).exec before).2 = after := congrArg Prod.snd hv
  refine ⟨fun reason ho => step_spared hn ht (.skipped reason ho),fun f t₂ ho hr => ⟨?_,?_⟩⟩
  · exact step_spared hn ht (.failed f t₂ ho hr)
  · exact fun id hid hlost => step_repeats hn ht ho hr hid hlost

def message : Step Value := { id := "a", type := "email_action", config := .object [] }

def unplanted : Store := { cells := #[.object [("order",.text "A7")]] }

def beforeMessage : Trip where
  world :=
    { store := { cells := #[.object [("order",.text "A7")],.object []] },
      db := { executionLogs := { rows := [{ id := 1, startedAt := default, updatedAt := default }] } } }
  run := { context := .cell 0, recorder := some { log := some 1 } }

def raised? : Except Fault Outcome → Option StepFailure
  | .error (.step f) => some f
  | _ => none

theorem walk_frame_message :
    ∃ t₁, Spared beforeMessage ((step { message with config := .cell 1 }).exec beforeMessage).2 ∧
      Repeats 1 t₁ ((step { message with config := .cell 1 }).exec beforeMessage).2 := by
  have hv : ((opening { message with config := .cell 1 }).exec beforeMessage).1.toOption =
      some none := by decide +kernel
  have hf : (raised? ((perform { message with config := .cell 1 }).exec
    ((opening { message with config := .cell 1 }).exec beforeMessage).2).1).isSome = true := by
    decide +kernel
  have hlost : ((step { message with config := .cell 1 }).exec beforeMessage).2.lost =
      beforeMessage.lost := by decide +kernel
  generalize hn : ({ message with config := .cell 1 } : Step Item) = n at *
  rcases ho : (opening n).exec beforeMessage with ⟨v,t₁⟩
  rcases hr : (perform n).exec t₁ with ⟨r,t₂⟩
  rcases hs : (step n).exec beforeMessage with ⟨exit,after⟩
  rw [ho] at hv hf
  rw [hr] at hf
  rw [hs] at hlost
  obtain rfl : v = .ok none := by
    cases v with
    | error f => cases hv
    | ok v => exact congrArg _ (Option.some.inj hv)
  obtain ⟨f,rfl⟩ : ∃ f, r = .error (.step f) := by
    cases r with
    | ok o => cases hf
    | error f =>
      cases f with
      | step f => exact ⟨f,rfl⟩
      | _ => cases hf
  have visited : Stop.IsOf ⟨[("a",.step n)],[]⟩ step ⟨"a",.step n,beforeMessage,after,exit⟩ :=
    ⟨rfl,hs⟩
  subst hn
  have hregion : unplanted.Region (· < 1) := Store.region_of_leaves (by
    simp [unplanted,Cell.layer,Layer.below,Item.In])
  obtain ⟨-,failed⟩ := walk_frame ⟨[("a",.step message)],[]⟩
    { beforeMessage.world with store := unplanted } beforeMessage.run hregion
    (by simp [beforeMessage,Item.In]) (.cons visited (.nil _ _)) _ List.mem_cons_self _ rfl t₁
  obtain ⟨spared,repeated⟩ := failed f t₂ ho hr
  exact ⟨t₁,spared,repeated 1 rfl hlost⟩

end Visit

end StepGraph
