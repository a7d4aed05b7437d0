import StepGraph.Proofs.DataFile
import StepGraph.Proofs.Departure
import StepGraph.Proofs.VisitCustody

/-!
The submitted data at the end of a run. Whatever is written into the extracted data, before the walk
and on it, the original ones are what was submitted, as long as they did not become the payload
themselves and nothing names their entry.
-/
namespace StepGraph

open Attempt Work

theorem Context.get_copy {s s' : Store} {c : Item} (hg : (copy s c).1.Grows s') (k : String) :
    get s' (copy s c).2 k = get s c k := by
  rw [show get s' (copy s c).2 k = _ from get_create hg k]
  unfold get Store.field View.field View.child? Store.entries
  simp only [Store.view]
  cases s.layer c <;> rfl

namespace Launch

def source (mode : Mode) (workflow : Int) (r : Request) : Work Seed.Source := do
  let (kind,_) ← opening mode workflow r
  sourced mode r kind (formatOf mode r kind)

/-- Nothing names the entry of the original data: neither the request nor the payload that the run
is seeded from, nor the configuration of a step. -/
structure OriginalUnnamed (mode : Mode) (workflow : Int) (r : Request) (w : World) : Prop where
  request : Seed.Unnamed Seed.originalKey mode r
  payload : ∀ c w', (source mode workflow r).exec w = (.ok c,w') →
    ∀ l ∈ Seed.payloadLayers w'.store c, Seed.originalKey ∉ Entries.keys l
  steps : ∀ g run w', (departure mode workflow r).exec w = (.ok (g,run),w') →
    ∀ name n k config, Entries.get? g.nodes name = some (.step n) → n.kind? = some k →
      w'.store.read n.config = .ok config → Seed.originalKey ∉ k.assigns n.id config

theorem departure_keepsSubmitted {mode : Mode} {workflow : Int} {r : Request} {w w' : World}
    {g : Graph Item} {run : Run} (hs : SubmittedApart r) (hu : OriginalUnnamed mode workflow r w)
    (h : (departure mode workflow r).exec w = (.ok (g,run),w')) :
    ∃ id P submitted, run.context = .cell id ∧ run.last = .null ∧
      (∃ n, w'.store.Spells n r.extracted submitted) ∧ KeepsSubmitted g w'.store P id submitted := by
  unfold departure at h
  obtain ⟨⟨kind,rec⟩,w₁,hopening,h⟩ := exec_bind_eq_ok h
  obtain ⟨ready,w₂,hprepare,h⟩ := exec_bind_eq_ok h
  cases h
  rw [prepare_sourced] at hprepare
  obtain ⟨c,w₃,hsourced,hfurnish⟩ := exec_bind_eq_ok hprepare
  obtain ⟨hmode,hrequest,⟨n,hspells⟩,P,hP,hin⟩ := sourced_keeps hs hsourced
  have hunnamed : Seed.Unnamed Seed.originalKey c.mode c.request := by
    rw [hmode,hrequest]
    exact hu.request
  have hsource : (source mode workflow r).exec w = (.ok c,w₃) := by
    unfold source
    rw [exec_bind_ok hopening]
    exact hsourced
  obtain ⟨hgrows,id,P',hcontext,hsealed⟩ :=
    furnish_keepsSubmitted hP hin hunnamed (hu.payload c w₃ hsource) hfurnish
  exact ⟨id,P',c.submitted,hcontext,rfl,⟨n,hspells.grows hgrows⟩,hsealed⟩

/-- The custody under which a run walks. -/
def keeper (g : Graph Item) (s : Store) (P : Nat → Prop) (id : Nat) (submitted : Item) :
    Custody (.cell id) :=
  ((Custody.keeping P id extracted_ne_original submitted).holding (forms g.nodes)).since s

namespace KeepsSubmitted

variable {g : Graph Item} {s : Store} {P : Nat → Prop} {id : Nat} {submitted : Item}

theorem region (h : KeepsSubmitted g s P id submitted) : s.Region P := by
  obtain ⟨Q,hkeeping,-⟩ := h.holds
  exact hkeeping.left

theorem fits (h : KeepsSubmitted g s P id submitted) {name : String} {n : Step Item}
    (hn : Entries.get? g.nodes name = some (.step n))
    (hsteps : ∀ k config, n.kind? = some k → s.read n.config = .ok config →
      Seed.originalKey ∉ k.assigns n.id config) : (keeper g s P id submitted).Fits n := by
  cases hform : isForm (name,.step n) with
  | true =>
    have hk : n.kind? = some .multipartUpload := by simpa [isForm] using hform
    apply Custody.Fits.since
    apply Custody.Fits.holding (Graph.mem_configs_filter hn hform)
    intro k hk' s' config _ _ entry hentry
    cases hk.symm.trans hk'
    cases hentry
  | false =>
    constructor
    -- What the step reads now is what it was planted with, so the same entries are assigned.
    · intro k hk s' config hholds hread entry hentry he
      obtain ⟨d,v,hspells⟩ := h.spelled name n hn
      have hspells' := h.region.spells hholds.2 (h.configs name n hn hform) hspells
      cases hspells'.read.symm.trans hread
      exact hsteps k _ hk hspells.read (he ▸ hentry)
    · intro hk
      simp [isForm,hk] at hform

theorem setOut (h : KeepsSubmitted g s P id submitted) {run : Run} (hcontext : run.context = .cell id)
    (hlast : run.last = .null) {w : World} (hw : w.store = s) :
    (keeper g s P id submitted).Over ⟨w,run⟩ := by
  subst hw
  refine ⟨hcontext,(Custody.keeping P id extracted_ne_original submitted).fewer h.holds
    fun i hi => ?_,.refl P _⟩
  rw [hlast] at hi
  rcases List.mem_cons.1 hi with rfl | hi
  · exact .inr ⟨_,rfl⟩
  · exact .inl hi

end KeepsSubmitted

theorem finish_get {rec : Recorder} {run : Run} {report : Report} {w w' : World}
    (h : (finish rec run).exec w = (.ok report,w')) :
    w.store.Grows w'.store ∧
      ∀ k, Context.get w'.store report.context k = Context.get w.store run.context k := by
  have grown {α : Type} {p : Work α} {w w' : World} {r : Except Fault α}
      (hp : Keeps (World.OnStore Store.Grows) p) (he : p.exec w = (r,w')) :
      w.store.Grows w'.store := by
    have hw := hp w
    rwa [he] at hw
  unfold finish at h
  obtain ⟨context,w₁,hcontext,h⟩ := exec_bind_eq_ok h
  obtain ⟨v,w₂,hlog,h⟩ := exec_bind_eq_ok h
  obtain ⟨_,w₃,hcomplete,h⟩ := exec_bind_eq_ok h
  obtain ⟨name,w₄,hname,h⟩ := exec_bind_eq_ok h
  have hg₂ := grown (Work.forLog_grows (AppendOnly.read _).grows) hlog
  have hg₃ := grown (rec.change_grows _ _) hcomplete
  have hg₄ := grown (filedName_appendOnly run _).grows hname
  have hbehind := trans_of Store.Grows hg₂ (trans_of Store.Grows hg₃ hg₄)
  cases h
  cases hcontext
  exact ⟨trans_of Store.Grows (Store.alloc_grows _ _) hbehind,Context.get_copy hbehind⟩

/-- At the end of a run the original data are what was submitted, whatever was written into the
extracted data, if a stored document is the payload or the submitted data are no container. -/
theorem run_original {mode : Mode} {workflow : Int} {r : Request} {w w' : World} {report : Report}
    (hr : r.workflow = some workflow) (hs : SubmittedApart r) (hu : OriginalUnnamed mode workflow r w)
    (h : (run mode r).exec w = (.ok report,w')) :
    w'.store.read (Context.get w'.store report.context Seed.originalKey) = .ok r.extracted := by
  rcases run_cases mode hr w with ⟨g,start,w₁,rec,context,hd,hrun⟩ | ⟨f,-,hf⟩ | ⟨f,w₁,rec,-,hrun⟩
  · rw [hrun] at h
    obtain ⟨⟨walked,end'⟩,w₂,hwalk,h⟩ := exec_bind_eq_ok h
    obtain ⟨id,P,submitted,hcontext,hlast,⟨n,hspells⟩,hsealed⟩ := departure_keepsSubmitted hs hu hd
    have hfits (name : String) (n : Step Item) (hn : Entries.get? g.nodes name = some (.step n)) :=
      hsealed.fits hn fun k config hk => hu.steps g start w₁ hd name n k config hn hk
    have hpasses : (keeper g w₁.store P id submitted).Passes ⟨w₁,start⟩ ⟨w₂,end'⟩ := by
      have hwalked := Visit.walk_passes hfits (hsealed.setOut hcontext hlast rfl) 100
      cases hwalk
      exact hwalked
    -- The entry still names the same item, and the containers below it are the same as well.
    obtain ⟨⟨Q,hkeeping,-⟩,hagrees⟩ := hpasses.still.store
    have hspells' := hsealed.region.spells hagrees hsealed.own hspells
    unfold conclude at h
    split at h
    · obtain ⟨f,w₃,-,h⟩ := exec_bind_eq_ok h
      cases h
    · obtain ⟨hgrows,hget⟩ := finish_get h
      have hcontext' : end'.context = .cell id := hpasses.still.context
      rw [hget,hcontext',hkeeping.get]
      exact (hspells'.grows hgrows).read
  · rw [h] at hf
    cases hf
  · rw [hrun] at h
    obtain ⟨f',w₂,-,h⟩ := exec_bind_eq_ok h
    cases h

def leavesOriginal (g : Graph Item) (s : Store) : Bool :=
  g.nodes.all fun e =>
    match e.2 with
    | .start _ => true
    | .step n =>
      match n.kind?, s.read n.config with
      | some k, .ok config => !(k.assigns n.id config).contains Seed.originalKey
      | _, _ => true

theorem leavesOriginal_step {g : Graph Item} {s : Store} (h : leavesOriginal g s = true)
    {name : String} {n : Step Item} {k : StepKind} {config : Value}
    (hn : Entries.get? g.nodes name = some (.step n)) (hk : n.kind? = some k)
    (hc : s.read n.config = .ok config) : Seed.originalKey ∉ k.assigns n.id config := by
  have hall := List.all_eq_true.1 h _ (Entries.mem_of_get? hn)
  simp only [hk,hc] at hall
  simpa using hall

def filling : World where
  db :=
    { nodes :=
        { rows := [{ id := "s", workflow := 1, nodeType := "start", createdAt := default },
            { id := "m", workflow := 1, stepType := some "read_email",
              config := .object [("emailFieldMappings",.list [.object [("fieldName",.text "b"),
                ("type",.text "hardcoded"),("value",.text "t")]])],
              createdAt := default }] }
      edges := { rows := [{ row := 1, id := "e", workflow := 1, source := "s", target := "m" }] }
      extractionTypes :=
        { rows := [{ id := 1, name := "k",
                     fieldMappings := .list [.object [("type",.text "function"),
                       ("functionId",.int 1),("fieldName",.text "c")]] }] }
      functions :=
        { rows := [{ id := 1, name := "f",
                     logic := .object [("type",.text "template"),("template",.text "x")] }] } }

def submittingData (data : Value) : Request :=
  { workflow := some 1, extractionType := some 1, extracted := data }

def spelledData : Value := .text "\x7b\"a\": 1\x7d"

def reportedTexts (done : Except Fault Report × World) (entry : String) :
    Option (Option String × Option String) := do
  let report ← done.1.toOption
  let v ← (done.2.store.read (Context.get done.2.store report.context entry)).toOption
  return ((v.field "b").text?,(v.field "c").text?)

theorem filling_originalUnnamed :
    OriginalUnnamed .extraction 1 (submittingData spelledData) filling := by
  have hpayload : ((source .extraction 1 (submittingData spelledData)).exec filling).1.toOption.map
      (fun c => (Seed.payloadLayers
        ((source .extraction 1 (submittingData spelledData)).exec filling).2.store c).all
          fun l => !(Entries.keys l).contains Seed.originalKey) = some true := by
    decide +kernel
  have hsteps : ((departure .extraction 1 (submittingData spelledData)).exec filling).1.toOption.map
      (fun d => leavesOriginal d.1
        ((departure .extraction 1 (submittingData spelledData)).exec filling).2.store) =
          some true := by
    unfold departure prepare Graph.stored
    simp only [Graph.createdFirst_sort]
    decide +kernel
  constructor
  · constructor
    · simp [submittingData,Entries.keys]
    · intro _ es hes
      cases hes
      simp [Entries.keys]
  · intro c w' hc l hl
    rw [hc] at hpayload
    have hall := List.all_eq_true.1 (Option.some.inj hpayload) l hl
    simpa using hall
  · intro g run w' hd name n k config hn hk hconfig
    rw [hd] at hsteps
    exact leavesOriginal_step (Option.some.inj hsteps) hn hk hconfig

/-- The text is still there when one field has been computed and the other one filled. -/
theorem run_original_spelled : ∃ report w',
    (run .extraction (submittingData spelledData)).exec filling = (.ok report,w') ∧
    w'.store.read (Context.get w'.store report.context Seed.originalKey) = .ok spelledData ∧
    reportedTexts (.ok report,w') Context.extractedKey = some (some "t",some "x") := by
  have hfields : reportedTexts ((run .extraction (submittingData spelledData)).exec filling)
      Context.extractedKey = some (some "t",some "x") := by
    unfold run prepare Graph.stored
    simp only [Graph.createdFirst_sort]
    decide +kernel
  rcases hrun : (run .extraction (submittingData spelledData)).exec filling with ⟨f | report,w'⟩ <;>
    rw [hrun] at hfields
  · cases hfields
  · have hseparate : SubmittedApart (submittingData spelledData) := fun _ => ⟨_,rfl⟩
    exact ⟨report,w',rfl,run_original rfl hseparate filling_originalUnnamed hrun,hfields⟩

/-- An object that is submitted as such is the payload itself, and has the fields as well. -/
example : reportedTexts ((run .extraction (submittingData (.object [("a",.int 1)]))).exec filling)
    Seed.originalKey = some (some "t",some "x") := by
  unfold run prepare Graph.stored
  simp only [Graph.createdFirst_sort]
  decide +kernel

end Launch

end StepGraph
