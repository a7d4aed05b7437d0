import StepGraph.Proofs.Enrichment
import StepGraph.Proofs.Submission

/-!
Setting out. A run whose records are open and whose data are loaded walks its graph, unless its
graph or its workflow data cannot be read, the mappings that count for its payload cannot be asked,
or the earlier groups of its session cannot. What stops a single computed field does not stop the
run.
-/
namespace StepGraph

open Attempt Work

variable {w w' : World} {workflow : Int}

theorem Graph.stored_records (h : w'.db = w.db) :
    ((stored workflow).exec w').1 = ((stored workflow).exec w).1 := by
  unfold stored
  rw [exec_database,exec_database,h]
  cases w.db.nodes.all <;> cases held workflow <;> cases w.db.edges.all <;> rfl

namespace Launch

/-- The graph of a workflow can be read, and there is a node to start from. -/
def Walkable (workflow : Int) (w : World) : Prop :=
  ∃ graph start, ((Graph.stored workflow).exec w).1 = .ok graph ∧ graph.start = .ok start

theorem Walkable.of_records (h : w'.db = w.db) : Walkable workflow w' ↔ Walkable workflow w := by
  unfold Walkable
  rw [Graph.stored_records h]

theorem furnish_ok_iff {c : Seed.Source} :
    (∃ ready w', (furnish workflow c).exec w = (.ok ready,w')) ↔
      Walkable workflow w ∧ Seed.Buildable c true w := by
  have hgraph := (Graph.stored_readOnly workflow).exec w
  unfold furnish
  constructor
  · rintro ⟨ready,w',h⟩
    obtain ⟨graph,w₁,hg,h⟩ := exec_bind_eq_ok h
    obtain ⟨_,w₂,hstart,h⟩ := exec_bind_eq_ok h
    obtain ⟨seed,w₃,hseed,-⟩ := exec_bind_eq_ok h
    rw [hgraph] at hg
    obtain ⟨hread,rfl⟩ := Prod.mk.inj hg
    rw [exec_discard] at hstart
    cases hs : graph.start with
    | error f =>
      rw [hs] at hstart
      cases hstart
    | ok start =>
      rw [hs] at hstart
      cases hstart
      refine ⟨⟨graph,start,hread,hs⟩,?_⟩
      by_contra hbuild
      obtain ⟨f,w',hfails⟩ := Seed.build_fails hbuild
      cases hseed.symm.trans hfails
  · rintro ⟨⟨graph,start,hg,hstart⟩,hbuild⟩
    obtain ⟨seed,s,-,-,-,-,hseed,-⟩ := Seed.build_ok hbuild
    have hdiscard : (discard (Work.of graph.start)).exec w = (.ok ⟨⟩,w) := by rw [hstart]; rfl
    rw [hg] at hgraph
    rw [exec_bind_ok hgraph,exec_bind_ok hdiscard,exec_bind_ok hseed]
    exact ⟨_,_,rfl⟩

/-- The data of a run: what was submitted is put into containers, and the payload is loaded. -/
def loading (r : Request) (format : String) : Work Item :=
  Work.plant r.extracted >>= fun submitted => loadPayload r submitted format

def Loads (r : Request) (format : String) (w : World) (v : Value) : Prop :=
  ∃ x w', (loading r format).exec w = (.ok x,w') ∧ w'.store.Tells x v

def StandsAlone (w : World) (x : Item) (w' : World) : Prop :=
  ∃ (o : Owned) (s : Store), o.item = x ∧ w' = { w with store := s } ∧
    Owned.Held (fun _ => False) s [o] ∧ o.GuestFree

theorem standsAlone_of_plant {v : Value} {x : Item} (h : (Work.plant v).exec w = (.ok x,w')) :
    StandsAlone w x w' := by
  cases h
  obtain ⟨o,hitem,-,hp⟩ := Owned.planted w.store (P := fun _ => False) ⟨nofun,nofun⟩ v
  exact ⟨o,_,hitem,rfl,hp.held,hp.plain o List.mem_cons_self⟩

theorem loadPayload_standsAlone {r : Request} {submitted x : Item} {format : String} {w₀ : World}
    (hs : StandsAlone w₀ submitted w) (h : (loadPayload r submitted format).exec w = (.ok x,w')) :
    StandsAlone w₀ x w' := by
  have behind {x : Item} {w' : World} (hx : StandsAlone w x w') : StandsAlone w₀ x w' := by
    obtain ⟨_,_,_,rfl,-⟩ := hs
    exact hx
  unfold loadPayload at h
  split at h
  · rename_i path _
    have hd := (storedDocument_readOnly path).exec w
    rw [exec_bind_ok (attempt_of_exec hd)] at h
    split at h
    · exact behind (standsAlone_of_plant h)
    · split at h
      · exact behind (standsAlone_of_plant (v := .object []) h)
      · cases h
  · have hstore : Work.store.exec w = (.ok w.store,w) := rfl
    rw [exec_bind_ok hstore] at h
    split at h
    · cases h
      exact hs
    · obtain ⟨v,w₁,hv,h⟩ := exec_bind_eq_ok h
      obtain ⟨-,rfl⟩ := Prod.mk.inj hv
      exact behind (standsAlone_of_plant h)

theorem loading_standsAlone {r : Request} {format : String} {x : Item}
    (h : (loading r format).exec w = (.ok x,w')) : StandsAlone w x w' := by
  obtain ⟨submitted,w₁,hsubmitted,h⟩ := exec_bind_eq_ok h
  exact loadPayload_standsAlone (standsAlone_of_plant hsubmitted) h

/-- What comes in addition to the data of a run can be asked for: in extraction mode the mappings
that count for its payload, and what earlier groups of its session carry over. -/
structure Enriches (mode : Mode) (r : Request) (kind : Option DocumentKind) (format : String)
    (payload : Value) (db : Database) : Prop where
  computed : mode = .extraction →
    ∀ stored, Enrich.Counts kind format payload stored → Enrich.Asked db stored
  carried : Seed.GroupsAskable db r

def WorkflowDataReadable (mode : Mode) (r : Request) : Prop :=
  mode = .extraction → ∀ s, r.workflowData = .text s → s ≠ "" → Seed.Uncut s

def Computes (mode : Mode) (kind : Option DocumentKind) (format : String) (payload : Value)
    (w : World) : Prop :=
  mode = .extraction → ∀ stored ms, Enrich.Counts kind format payload stored →
    Enrich.functionMappings stored = .ok ms → Enrich.Evaluable w ms payload

theorem furnished_iff {c : Seed.Source} (h : w'.db = w.db) :
    (∃ ready w'', (furnish workflow c).exec w' = (.ok ready,w'')) ↔
      Walkable workflow w ∧ WorkflowDataReadable c.mode c.request ∧
        Seed.GroupsAskable w.db c.request := by
  rw [furnish_ok_iff,Walkable.of_records h]
  refine and_congr_right fun _ => ⟨fun hb => ⟨hb.workflow,h ▸ hb.groups rfl⟩,fun hb => ?_⟩
  exact ⟨hb.1,fun _ => h ▸ hb.2⟩

/-- Where what is computed is sound, a run is prepared just where its graph and its workflow data can
be read and what comes in addition can be asked for. -/
theorem prepare_ok_iff {mode : Mode} {r : Request} {kind : Option DocumentKind} {format : String}
    {v : Value} (hl : Loads r format w v) (hc : Computes mode kind format v w) :
    (∃ ready w', (prepare mode workflow r kind format).exec w = (.ok ready,w')) ↔
      Walkable workflow w ∧ WorkflowDataReadable mode r ∧ Enriches mode r kind format v w.db := by
  obtain ⟨x,w₁,hload,htells⟩ := hl
  obtain ⟨o,s,rfl,rfl,hheld,hplain⟩ := loading_standsAlone hload
  obtain ⟨submitted,w₀,hsubmitted,hpayload⟩ := exec_bind_eq_ok hload
  obtain rfl : o.tree = v := by
    have hread := (hheld.tells List.mem_cons_self).read
    cases hread.symm.trans htells.read
    rfl
  have hfurnish {w₂ : World} (h : w₂.db = w.db) :
      (∃ ready w', (furnish workflow ⟨mode,r,submitted,o.item,format,kind⟩).exec w₂ =
          (.ok ready,w')) ↔
        Walkable workflow w ∧ WorkflowDataReadable mode r ∧ Seed.GroupsAskable w.db r :=
          furnished_iff h
  rw [prepare_eq,exec_bind_ok hsubmitted,exec_bind_ok hpayload]
  cases mode with
  | transformation =>
    refine Iff.trans (hfurnish rfl) ⟨fun ⟨hg,hd,hgroups⟩ => ⟨hg,hd,nofun,hgroups⟩,?_⟩
    exact fun ⟨hg,hd,he⟩ => ⟨hg,hd,he.carried⟩
  | extraction =>
    have hev : ∀ stored ms, Enrich.Counts kind format o.tree stored →
        Enrich.functionMappings stored = .ok ms →
        Enrich.Evaluable { w with store := s } ms o.tree := fun stored ms hcounts hms =>
      have h := hc rfl stored ms hcounts hms
      ⟨h.names,h.sound,h.legible,h.moderate,h.apart⟩
    have hpayload := Enrich.payload_ok_iff (w := { w with store := s }) hheld hplain hev
    -- Computing fields leaves the records, so graph and groups are read as they were before it.
    have hrecords := (Enrich.payload_unreported kind format o.item).records { w with store := s }
    constructor
    · rintro ⟨ready,w',h⟩
      obtain ⟨_,w₂,hwritten,h⟩ := exec_bind_eq_ok h
      rw [hwritten] at hrecords
      obtain ⟨hg,hd,hgroups⟩ := (hfurnish hrecords).1 ⟨ready,w',h⟩
      exact ⟨hg,hd,fun _ => hpayload.1 ⟨w₂,hwritten⟩,hgroups⟩
    · rintro ⟨hg,hd,he⟩
      obtain ⟨w₂,hwritten⟩ := hpayload.2 (he.computed rfl)
      rw [hwritten] at hrecords
      obtain ⟨ready,w',h⟩ := (hfurnish hrecords).2 ⟨hg,hd,he.carried⟩
      refine ⟨ready,w',?_⟩
      change (Enrich.payload kind format o.item >>= _).exec _ = _
      rw [exec_bind_ok hwritten]
      exact h

/-- A run sets out: its records are open, it is prepared, and it goes on by walking its graph from
the prepared start. -/
def SetsOut (mode : Mode) (workflow : Int) (r : Request) (w : World) : Prop :=
  ∃ kind rec start w₁ w₂, (opening mode workflow r).exec w = (.ok (kind,rec),w₁) ∧
    (prepare mode workflow r kind (formatOf mode r kind)).exec w₁ = (.ok start,w₂) ∧
    (run mode r).exec w =
      (traverse start.graph (outset rec workflow (formatOf mode r kind) start) >>=
        conclude rec start.context).exec w₂

theorem run_prepared {mode : Mode} {r : Request} {kind : Option DocumentKind} {rec : Recorder}
    {w₁ w₂ : World} {ready : Except Fault Ready} (hr : r.workflow = some workflow)
    (hop : (opening mode workflow r).exec w = (.ok (kind,rec),w₁))
    (hprep : (prepare mode workflow r kind (formatOf mode r kind)).exec w₁ = (ready,w₂)) :
    (run mode r).exec w = (proceed rec workflow (formatOf mode r kind) ready).exec w₂ := by
  rw [run_eq mode hr,exec_bind_ok hop,exec_bind_ok (attempt_of_exec hprep)]

/-- A run whose records are open, whose data are loaded and whose graph and workflow data can be
read sets out just where its mappings and the earlier groups can be asked, and fails where they
cannot. No computed field keeps it from setting out, as long as what is computed is sound. -/
theorem run_setsOut_iff {mode : Mode} {r : Request} {kind : Option DocumentKind} {rec : Recorder}
    {v : Value} {w₁ : World} (hr : r.workflow = some workflow)
    (hop : (opening mode workflow r).exec w = (.ok (kind,rec),w₁))
    (hl : Loads r (formatOf mode r kind) w v) (hg : Walkable workflow w)
    (hd : WorkflowDataReadable mode r)
    (hc : Computes mode kind (formatOf mode r kind) v w) :
    (SetsOut mode workflow r w ↔ Enriches mode r kind (formatOf mode r kind) v w.db) ∧
      (¬Enriches mode r kind (formatOf mode r kind) v w.db →
        ∃ f, ((run mode r).exec w).1 = .error f) := by
  -- The opening writes to the audit trail only, which preparing does not look at.
  have htrail : w.Alike ((opening mode workflow r).exec w).2 := opening_trail mode workflow r w
  rw [hop] at htrail
  obtain ⟨l,rfl⟩ := htrail
  have hready : (∃ start w', (prepare mode workflow r kind (formatOf mode r kind)).exec w =
      (.ok start,w')) ↔ Walkable workflow w ∧ WorkflowDataReadable mode r ∧
        Enriches mode r kind (formatOf mode r kind) v w.db := prepare_ok_iff hl hc
  have hprep := (prepare_unreported mode workflow r kind (formatOf mode r kind)).unlogged l w
  rcases hp : (prepare mode workflow r kind (formatOf mode r kind)).exec w with ⟨f | start,w₂⟩ <;>
    rw [hp] at hprep
  · have hn : ¬Enriches mode r kind (formatOf mode r kind) v w.db := by
      intro he
      obtain ⟨start,w',hstart⟩ := hready.2 ⟨hg,hd,he⟩
      cases hp.symm.trans hstart
    refine ⟨⟨?_,fun he => absurd he hn⟩,fun _ => ?_⟩
    · rintro ⟨kind',rec',start,w₁,w',hop',hprep',-⟩
      cases hop.symm.trans hop'
      cases hprep.symm.trans hprep'
    · rw [run_prepared hr hop hprep]
      change ∃ f', ((fail rec none f >>= throw).exec _).1 = .error f'
      rw [exec_bind]
      rcases (fail rec none f).exec (w₂.withLogs l) with ⟨f' | f',w'⟩
      · exact ⟨f',rfl⟩
      · exact ⟨f',rfl⟩
  · obtain ⟨-,-,he⟩ := hready.1 ⟨start,w₂,hp⟩
    refine ⟨⟨fun _ => he,fun _ => ?_⟩,fun hn => absurd he hn⟩
    exact ⟨kind,rec,start,_,_,hop,hprep,run_prepared hr hop hprep⟩

def unplaced : Value :=
  .object [("type",.text "substring"),("field",.text "a"),("start",.text "two")]

def mapping : DocumentKind where
  id := 1
  name := "T"
  fieldMappings := .list
    [.object [("type",.text "function"),("functionId",.int 1),("fieldName",.text "b")]]

def mapped : World where
  db :=
    { extractionTypes := { rows := [mapping] }
      functions := { rows := [{ id := 1, name := "f", logic := unplaced }] }
      groups := { rows := [{ id := 1, session := "s", order := 1, fields := .object [("k",.int 1)] }] }
      nodes := { rows := [{ id := "s", workflow := 1, nodeType := "start", createdAt := default }] } }

def second : Request where
  workflow := some 1
  extractionType := some 1
  extracted := .object [("a",.text "z")]
  session := some "s"
  groupOrder := some 2

theorem unplaced_of_uses {ms : List Value} {m logic : Value}
    (hms : Enrich.functionMappings mapping.fieldMappings = .ok ms) (hm : m ∈ ms)
    (h : FieldFunction.Uses (Enrich.documents mapped.db) m logic) : logic = unplaced := by
  cases hms
  rw [List.mem_singleton.1 hm] at h
  cases h
  rfl

theorem unplaced_sound : FieldFunction.Sound unplaced where
  object _ := rfl
  separator h := absurd h (by decide)
  conditions h := absurd h (by decide)
  figures _ := ⟨rfl,rfl⟩

theorem mapped_computes : Computes .extraction (some mapping) "JSON" second.extracted mapped := by
  rintro - _ ms ⟨⟨k,hk,rfl⟩,-⟩ hms
  cases hk
  refine ⟨?_,fun m hm logic h => ?_,?_,?_,?_⟩
  · cases hms
    exact List.forall_mem_singleton.2 fun _ => rfl
  · rw [unplaced_of_uses hms hm h]
    exact unplaced_sound
  · rintro ⟨m,hm,logic,h,hlookup⟩
    rw [unplaced_of_uses hms hm h] at hlookup
    exact absurd hlookup (by decide)
  · rintro ⟨m,hm,logic,h,hcompares⟩
    rw [unplaced_of_uses hms hm h] at hcompares
    exact absurd hcompares.1 (by decide)
  · cases hms
    exact List.pairwise_singleton _ _

theorem mapped_enriches :
    Enriches .extraction second (some mapping) "JSON" second.extracted mapped.db := by
  refine ⟨?_,fun session order ha _ => ⟨?_,?_⟩⟩
  · rintro - _ ⟨⟨k,hk,rfl⟩,-⟩
    cases hk
    refine ⟨⟨fun _ => .inl rfl,fun s hs => by cases hs⟩,fun ms hms _ _ m hm i hi => ?_⟩
    cases hms
    rw [List.mem_singleton.1 hm] at hi
    cases hi
    decide
  · cases ha
    decide
  · intro g hg _ _
    rw [List.mem_singleton.1 hg]
    exact fun _ => ⟨_,rfl⟩

theorem mapped_walkable : Walkable 1 mapped := by
  have told : (((Graph.stored 1).exec mapped).1.toOption.bind fun g => g.start.toOption).isSome =
      true := by decide +kernel
  rcases hr : ((Graph.stored 1).exec mapped).1 with f | graph <;> rw [hr] at told
  · cases told
  · cases hs : graph.start with
    | error f => simp [Except.toOption,hs] at told
    | ok start => exact ⟨graph,start,hr,hs⟩

/-- A run sets out although the only computed field cannot be computed. -/
theorem run_setsOut_iff_second :
    (∃ f, FieldFunction.evaluate Value.access unplaced (Scope.ofValue second.extracted) =
      .error f) ∧
    Loads second "JSON" mapped second.extracted ∧ Walkable 1 mapped ∧
      WorkflowDataReadable .extraction second ∧
    Computes .extraction (some mapping) "JSON" second.extracted mapped ∧
    Enriches .extraction second (some mapping) "JSON" second.extracted mapped.db ∧
    SetsOut .extraction 1 second mapped := by
  obtain ⟨rec,w₁,hop⟩ : ∃ rec w₁,
      (opening .extraction 1 second).exec mapped = (.ok (some mapping,rec),w₁) := ⟨_,_,rfl⟩
  have hformat : formatOf .extraction second (some mapping) = "JSON" := by decide +kernel
  have hl : Loads second "JSON" mapped second.extracted := ⟨_,_,rfl,2,by decide,rfl⟩
  have hd : WorkflowDataReadable .extraction second := fun _ s hs => by cases hs
  refine ⟨⟨_,rfl⟩,hl,mapped_walkable,hd,mapped_computes,mapped_enriches,?_⟩
  have hc := mapped_computes
  have he := mapped_enriches
  rw [← hformat] at hl hc he
  exact (run_setsOut_iff rfl hop hl mapped_walkable hd hc).1.2 he

end Launch

end StepGraph
