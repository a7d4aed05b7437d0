import StepGraph.Proofs.Custody
import StepGraph.Proofs.ExecutorHeap
import StepGraph.Proofs.Planted
import StepGraph.Proofs.VisitHeap

/-!
Visits under a custody. Everything around the performed step only adds to the store, so a visit
minds whatever the step itself minds; and what every visit of a trail minds, the trail minds. A form
minds every custody that works with its configuration. It writes there only if a part is posted as a
filled-in document and that document stands in the configuration as a container; the document of
every other part is read from text or new.
-/
namespace StepGraph

open Attempt Edit

namespace Steps

/-- A part with a document that stands in the configuration and is filled in where it stands. -/
def fillsDocument (part : Value) : Bool :=
  (part.field "name").truthy && (part.field "fieldMappings").truthy &&
    (part.field "value").truthy && (part.field "value").layer.isContainer &&
      match part.field "type" with
      | .text "file" => false
      | _ => true

def fillsInPlace (config : Value) : Bool :=
  (Mapping.listed (config.field "formParts")).any fillsDocument

end Steps

theorem Value.field_of_member {v x : Value} {k : String} (h : v.member k = .ok x) :
    v.field k = x := by
  unfold Value.member View.member at h
  unfold Value.field View.field View.child?
  split at h
  · cases h
    rfl
  · cases h

namespace Http.JsonPart

variable {c : Item} {C : Custody c} {live : List Item} {part : Item} {p : Value} {n : Nat}

theorem raw_leaf {s : Store} (hs : s.Spells n p part)
    (hv : (p.field "value").truthy = true → (p.field "value").layer.isContainer = false) :
    ∃ a, s.layer (s.view.orElse (s.field part "value") (.text "\x7b\x7d")) = .scalar a := by
  have hvalue := hs.field "value"
  unfold View.orElse
  split
  · rename_i ht
    rw [hvalue.truthy] at ht
    have hleaf := hv ht
    revert hvalue hleaf
    generalize p.field "value" = v
    generalize s.field part "value" = i
    intro hvalue hleaf
    cases hvalue with
    | leaf n a => exact ⟨a,rfl⟩
    | list lt cell parts => cases hleaf
    | object lt cell fields => cases hleaf
  · exact ⟨_,rfl⟩

theorem start_beside (hpart : ∀ s, C.Holds live s → s.Spells n p part)
    (hv : (p.field "value").truthy = true → (p.field "value").layer.isContainer = false) :
    C.Respects id live (start part) fun x => [x] := by
  intro s hs
  obtain ⟨a,ha⟩ := raw_leaf (hpart s hs) hv
  have made (v : Value) : C.Respects id live (Edit.plant v) fun x => [x] :=
    Custody.respects_of_leads fun _ _ => Leads.plant v
  unfold start
  rw [exec_bind_ok (exec_get s)]
  simp only [ha]
  -- Whatever the leaf is, the document is planted: read from the text, or empty.
  cases a with
  | text t =>
    refine Custody.Respects.of_bind (fun doc _ => ?_) s hs
    split
    · exact made _
    · exact made doc
  | _ => exact made _ s hs

theorem build_beside (hpart : ∀ s, C.Holds live s → s.Spells n p part)
    (hv : (p.field "value").truthy = true → (p.field "value").layer.isContainer = false)
    (scope : Scope) : C.Respects id live (build part scope) fun _ => [] := by
  unfold build
  refine (start_beside hpart hv).bind fun doc => Custody.respects_of_leads fun _ _ => ?_
  refine Leads.bind .get fun s => (Leads.read _).bind fun mappings => (Leads.of _).bind fun ms => ?_
  refine (Leads.closed.forM fun m _ => fill_stays scope List.mem_cons_self m).bind fun _ => ?_
  exact (Leads.read doc).bind fun v => .of _

end Http.JsonPart

namespace Steps

open Work Custody

variable {c : Item} {C : Custody c} {live : List Item} {n : Nat}

theorem formParts_minds {node : Step Item} (hn : node.config ∈ live) (run : Run) (scope : Scope)
    (filename : Value) : C.Minds live (formParts run node scope filename) fun _ => [] := by
  unfold formParts
  refine .find (fun s Q hQ items hitems => ?_) fun items => ?_
  · exact hQ.region.hereditary.optionalParts (hQ.region.field (hQ.mem _ hn) _) hitems
  · refine Respects.closed.bind (Respects.closed.mapM fun item hitem => ?_) fun _ => .pure (by simp)
    refine buildPart_in Respects.closed (fun h => .grows h.grows) run scope filename ?_
    exact .edit (respects_of_leads fun _ _ =>
      Http.JsonPart.build_stays (List.mem_append_left _ hitem) scope)

theorem buildPart_beside {item : Item} {part : Value}
    (hitem : ∀ s, C.Holds live s → s.Spells n part item) (hpart : fillsDocument part = false)
    (run : Run) (scope : Scope) (filename : Value) :
    C.Minds live (buildPart run scope filename item) fun _ => [] := by
  unfold buildPart
  refine .read fun v hv => .of_bind fun name hname => ?_
  obtain ⟨s,hs,hread⟩ := hv
  obtain rfl : part = v := Except.ok.inj ((hitem s hs).read.symm.trans hread)
  split
  · exact Respects.closed.pure _
  · rename_i hnamed
    split
    · have hf : AppendOnly (filePart run part name filename) :=
        (pdfOf_readOnly run).appendOnly.bind fun _ => AppendOnly.closed.pure _
      exact Respects.closed.map (.grows hf.grows) _
    · rename_i htype
      refine Respects.closed.map (Respects.closed.bind ?_ fun _ => Respects.closed.pure _) _
      unfold partText
      split
      · rename_i hmappings
        refine Respects.closed.bind (.edit (Http.JsonPart.build_beside hitem ?_ scope)) fun _ =>
          Respects.closed.pure _
        intro ht
        have hname : (part.field "name").truthy = true := by
          rw [Value.field_of_member hname]
          simpa using hnamed
        unfold fillsDocument at hpart
        simpa [hname,hmappings,ht,htype] using hpart
      · exact .appendOnly (.of _) fun _ => Respects.closed.pure _

theorem formParts_beside {P : Nat → Prop} {s₀ : Store} {node : Step Item} {config : Value}
    (hP : s₀.Region P) (hC : ∀ s, C.Holds live s → s₀.Agrees P s) (hin : node.config.In P)
    (hconfig : s₀.Spells n config node.config) (hform : fillsInPlace config = false) (run : Run)
    (scope : Scope) (filename : Value) :
    C.Minds live (formParts run node scope filename) fun _ => [] := by
  intro w hw
  have ha := hC w.store hw
  have hfield := (hP.spells ha hin hconfig).field "formParts"
  have hfieldIn := (hP.of_agrees ha).field hin "formParts"
  have built (items : List Item) (hitems : ∀ i ∈ items, i.In P ∧
      ∃ part, fillsDocument part = false ∧ w.store.Spells n part i) :
      C.Minds live (items.mapM (buildPart run scope filename) >>= fun built =>
        pure (built.filterMap id)) fun _ => [] := by
    refine Respects.closed.bind ?_ fun _ => Respects.closed.pure _
    refine Respects.closed.mapM fun i hi => ?_
    obtain ⟨hiP,part,hpart,hs⟩ := hitems i hi
    have hspells (s : Store) (hs' : C.Holds live s) : s.Spells n part i :=
      (hP.of_agrees ha).spells (fun id hid => (hC s hs' id hid).trans (ha id hid).symm) hiP hs
    exact buildPart_beside hspells hpart run scope filename
  have hstore : Work.store.exec w = (.ok w.store,w) := rfl
  unfold formParts
  rw [exec_bind_ok hstore]
  rcases hp : w.store.view.optionalParts (w.store.field node.config "formParts") with f | items
  · exact ⟨C.refl _,hw,fun x hx => by cases hx⟩
  · obtain ⟨parts,hparts,hs⟩ := hfield.optionalParts hp
    have hitems := (hP.of_agrees ha).hereditary.optionalParts hfieldIn hp
    refine built items (fun i hi => ⟨hitems i hi,?_⟩) w hw
    obtain ⟨part,hpart,hspells⟩ := hs.mem i hi
    refine ⟨part,?_,hspells⟩
    unfold fillsInPlace at hform
    rw [List.any_eq_false,listed_of_ok hparts] at hform
    exact Bool.eq_false_iff.2 (hform part hpart)

end Steps

end StepGraph

namespace StepGraph

open Attempt

namespace Custody

variable {c : Item} {C : Custody c}

structure Over (C : Custody c) (t : Trip) : Prop where
  context : t.run.context = c
  store : C.Holds [t.run.last] t.world.store

/-- A step that minds a custody: what it assigns is free, and its form, if it posts one, is built
with care. -/
structure Fits (C : Custody c) (n : Step Item) : Prop where
  allows : ∀ k, n.kind? = some k → C.Allows k n
  parts : n.kind? = some .multipartUpload → ∀ run live scope filename,
    C.Minds live (Steps.formParts run n scope filename) fun _ => []

theorem Fits.holding {docs : List Item} {n : Step Item} (hn : n.config ∈ docs)
    (h : ∀ k, n.kind? = some k → (C.holding docs).Allows k n) : (C.holding docs).Fits n where
  allows := h
  parts _ run _ scope filename :=
    (Steps.formParts_minds (List.mem_append_right _ hn) run scope filename).holding

theorem Fits.since {n : Step Item} (h : C.Fits n) (s₀ : Store) : (C.since s₀).Fits n where
  allows k hk s config hs := h.allows k hk s config hs.1
  parts hm run live scope filename := (h.parts hm run live scope filename).since

/-- From one trip to another the custody is minded. -/
structure Passes (C : Custody c) (t t' : Trip) : Prop where
  kept : C.Kept t.world.store t'.world.store
  still : C.Over t'

variable {t t' t'' : Trip} {n : Step Item}

theorem Over.passes (h : C.Over t) : C.Passes t t := ⟨C.refl _,h⟩

theorem Passes.trans (h : C.Passes t t') (h' : C.Passes t' t'') : C.Passes t t'' :=
  ⟨C.trans h.kept h'.kept,h'.still⟩

theorem Over.beside (h : C.Over t) (hb : Visit.Beside t t') : C.Passes t t' := by
  obtain ⟨hr,hg⟩ := hb
  obtain ⟨hk,hs⟩ := C.grows h.store hg
  exact ⟨hk,hr ▸ h.context,hr ▸ hs⟩

end Custody

namespace Visit

open Custody

variable {c : Item} {C : Custody c} {n : Step Item} {t t' : Trip}

theorem perform_passes (hn : C.Fits n) (h : C.Over t) : C.Passes t ((perform n).exec t).2 := by
  cases hk : n.kind? with
  | none =>
    unfold perform
    rw [hk]
    exact h.beside ⟨rfl,Store.plant_grows _ _⟩
  | some k =>
    have hparts (hm : k = .multipartUpload) := hn.parts (hk.trans (congrArg some hm)) t.run
    have hp := Steps.perform_minds k h.context (hn.allows k hk)
      (fun hm scope filename => hparts hm [t.run.last] scope filename) t.world h.store
    obtain ⟨hkept,hs,hx⟩ := hp
    rw [perform_known hk]
    rcases hd : (k.perform t.run n).exec t.world with ⟨f | o,w⟩ <;> rw [hd] at hkept hs hx
    · exact ⟨hkept,h.context,hs⟩
    · simp only
      split
      -- The response of the step takes the place of the last one.
      · refine ⟨hkept,h.context,C.fewer (hx o rfl) fun i hi => .inl ?_⟩
        rw [List.mem_singleton.1 hi]
        exact List.mem_cons_self
      · exact ⟨hkept,h.context,hs⟩

theorem step_passes (hn : C.Fits n) (h : C.Over t) : C.Passes t ((step n).exec t).2 := by
  have hopen : C.Passes t ((opening n).exec t).2 := h.beside (around_beside.opening n t)
  rw [step_eq,exec_bind]
  rcases ho : (opening n).exec t with ⟨f | _ | reason,t₁⟩ <;> rw [ho] at hopen
  · exact hopen
  · have hp := perform_passes hn hopen.still
    change C.Passes t ((settle n).exec t₁).2
    unfold settle
    rw [exec_bind,exec_caught]
    rcases hd : (perform n).exec t₁ with ⟨f | o,t₂⟩ <;> rw [hd] at hp
    · exact (hopen.trans hp).trans (hp.still.beside (around_beside.failed n f t₂))
    · exact (hopen.trans hp).trans (hp.still.beside (around_beside.performed n o t₂))
  · exact hopen.trans (hopen.still.beside (around_beside.skip n reason t₁))

theorem trail_passes {g : Graph Item} {target next : Option String} {stops : List (Stop Trip Item)}
    (h : g.Trail step t target stops t' next)
    (hn : ∀ st ∈ stops, ∀ n, st.node = .step n → C.Fits n) (ht : C.Over t) :
    (∀ st ∈ stops, C.Passes t st.before) ∧ C.Passes t t' := by
  -- The invariant is `Over`; each stop hands it on to the rest of the trail.
  induction h with
  | nil => exact ⟨by simp,ht.passes⟩
  | @cons st stops t' next hst _ ih =>
    obtain ⟨hfirst,hrest⟩ := List.forall_mem_cons.1 hn
    have hp : C.Passes st.before st.after := by
      obtain ⟨target,node,before,after,exit⟩ := st
      obtain ⟨-,hv⟩ := hst
      cases node with
      | start m =>
        obtain ⟨-,rfl⟩ : exit = .ok defaultHandle ∧ after = before := hv
        exact ht.passes
      | step n =>
        have hv : (step n).exec before = (exit,after) := hv
        have hs := step_passes (hfirst n rfl) ht
        rw [hv] at hs
        exact hs
    obtain ⟨hall,hend⟩ := ih hrest hp.still
    exact ⟨List.forall_mem_cons.2 ⟨ht.passes,fun s hs => hp.trans (hall s hs)⟩,hp.trans hend⟩

theorem walk_passes {g : Graph Item}
    (hn : ∀ id n, Entries.get? g.nodes id = some (.step n) → C.Fits n) (ht : C.Over t)
    (limit : Nat) : C.Passes t ((g.walk step limit).run t).2 := by
  cases hstart : g.start with
  | error f =>
    rw [Graph.walk_stopped hstart]
    exact ht.passes
  | ok m =>
    obtain ⟨stops,next,htrail,-,-,-⟩ := Graph.walk_trail hstart step limit t
    refine (trail_passes htrail (fun st hst n hnode => ?_) ht).2
    have hat := (htrail.isOf st hst).1
    rw [hnode] at hat
    exact hn _ n hat

end Visit

end StepGraph
