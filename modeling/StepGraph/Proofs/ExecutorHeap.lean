import StepGraph.Proofs.Custody

/-!
Every step minds every custody under which it works. What it writes to the context comes from the
context, from the response, or is new, and it stands under names that the configuration gives. The
documents of a form are filled in by the form alone.
-/
namespace StepGraph.Steps

open Attempt Work Edit Custody

variable {α β : Type} {run : Run} {node : Step Item} {context : Item} {C : Custody context}
  {live : List Item}

theorem guard_minds {c : Prop} {_ : Decidable c} {p : Work PUnit} {f : PUnit → Work α}
    {named : α → List Item} (hp : C.Minds live p fun _ => [])
    (hf : ∀ u, C.Minds live (f u) named) : C.Minds live (if c then p >>= f else f ⟨⟩) named := by
  split
  · exact hp.bind hf
  · exact hf ⟨⟩

theorem refuse_minds {γ : Type} {c : Prop} {_ : Decidable c} {q : Work γ} {g : γ → Fault}
    {f : PUnit → Work α} {named : α → List Item} (hq : AppendOnly q)
    (hf : ∀ u, C.Minds live (f u) named) :
    C.Minds live (if c then q >>= fun t => throw (g t) >>= f else f ⟨⟩) named := by
  split
  · exact .appendOnly hq fun t => .appendOnly (.throw (g t)) hf
  · exact hf ⟨⟩

theorem either_minds {c : Prop} {_ : Decidable c} {p q : Work α} {f : α → Work β}
    {named : β → List Item} (hp : AppendOnly p) (hq : AppendOnly q)
    (hf : ∀ x, C.Minds live (f x) named) :
    C.Minds live (if c then p >>= f else q >>= f) named := by
  split
  · exact .appendOnly hp hf
  · exact .appendOnly hq hf

theorem config_minds {k : StepKind} {f : Value → Work α} {named : α → List Item}
    (hw : C.Allows k node)
    (hf : ∀ config, (∀ name ∈ k.assigns node.id config, C.Free name) →
      C.Minds live (f config) named) : C.Minds live (Work.read node.config >>= f) named :=
  .read fun config ⟨s,hs,hr⟩ => hf config (hw s config (C.fewer hs (by simp)) hr)

theorem set_minds {x : Item} (hc : run.context = context) (hx : Among live x) {k : String}
    (hk : C.Free k) : C.Minds live (run.set k x) fun _ => [] := by
  subst hc
  exact .edit (set_respects hx hk)

theorem noteName_minds (run : Run) (name : Value) :
    C.Minds live (run.noteName name) fun _ => [] := by
  refine .looks fun w => ?_
  unfold Run.noteName
  split <;> rfl

theorem setNamed_minds {x : Item} (hc : run.context = context) (hx : Among live x) {name : Value}
    (hn : ∀ k ∈ Mapping.entryOf name, C.Free k) :
    C.Minds live (run.setNamed name x) fun _ => [] := by
  refine .of_bind fun k hk => ?_
  exact (set_minds hc hx (hn k (mem_entryOf hk))).bind fun _ => noteName_minds run name

theorem applyMappings_minds {response : Item} (hc : run.context = context)
    (hr : Among live response) {config : Value}
    (hm : ∀ k ∈ Mapping.responded (config.field "responseDataMappings"), C.Free k) :
    C.Minds live (applyMappings run config response) fun _ => [] := by
  subst hc
  exact Respects.closed.map (Respects.edit (respondAll_respects hr hm)) _

theorem phase_minds (name status : String) (input output : Item) (error : Option String) :
    C.Minds live (run.logPhase node name status input output error) fun _ => [] :=
  .looks fun w => (logPhase_exec run node name status input output error w).2.1

theorem fetch_minds (request : HttpRequest) :
    C.Minds live (fetch request) fun r => [r.body] := by
  refine (Respects.send request).bind fun r => ?_
  split
  · exact .pure (by simp [Among])
  · exact .appendOnly ((AppendOnly.read _).bind fun _ => AppendOnly.closed.pure _) fun f => .throw f

theorem apiCall_minds (hc : run.context = context) (hw : C.Allows .apiCall node) :
    C.Minds live (apiCall run node) fun o => [o.response] := by
  unfold apiCall
  refine config_minds hw fun config hm => .appendOnly (scope_readOnly run).appendOnly fun scope => ?_
  refine .appendOnly (.require _) fun _ => .appendOnly (.of _) fun method =>
    .appendOnly (.of _) fun url => ?_
  refine .appendOnly (.of _) fun headers => .appendOnly (.of _) fun body => ?_
  refine .appendOnly (entry_readOnly run _).appendOnly fun _ =>
    .appendOnly (.newObject _) fun input => ?_
  refine (fetch_minds _).bind fun r => ?_
  refine (applyMappings_minds hc (.inl List.mem_cons_self) hm).bind fun _ => .pure ?_
  simp [Among]

theorem apiEndpoint_minds (hc : run.context = context) (hw : C.Allows .apiEndpoint node) :
    C.Minds live (apiEndpoint run node) fun o => [o.response] := by
  unfold apiEndpoint
  refine config_minds hw fun config hm => .appendOnly (scope_readOnly run).appendOnly fun scope => ?_
  refine .appendOnly (.require _) fun _ => .appendOnly (profileOf_appendOnly config _) fun p => ?_
  refine refuse_minds (.of _) fun _ => .appendOnly (.of _) fun method =>
    .appendOnly (.of _) fun url => ?_
  refine either_minds (AppendOnly.closed.pure _) (.of _) fun body => (fetch_minds _).bind fun r => ?_
  refine (applyMappings_minds hc (.inl List.mem_cons_self) hm).bind fun _ => ?_
  exact .appendOnly (.newObject _) fun _ => .pure (by simp [Among])

theorem conditionalCheck_minds (hc : run.context = context)
    (hw : C.Allows .conditionalCheck node) :
    C.Minds live (conditionalCheck run node) fun o => [o.response] := by
  unfold conditionalCheck
  refine config_minds hw fun config hn => ?_
  refine .appendOnly ((AppendOnly.of _).bind fun _ => check_appendOnly run _ _ _) fun main => ?_
  refine .appendOnly (.of _) fun more => ?_
  refine .appendOnly (AppendOnly.closed.mapM fun c _ => checkFurther_appendOnly run c)
    fun further => ?_
  refine either_minds (AppendOnly.closed.pure _) (.of _) fun met => ?_
  refine .appendOnly (AppendOnly.closed.mapM fun c _ =>
    (checkedEntries_appendOnly c _).bind fun _ => .newObject _) fun results => ?_
  extract_lets rest
  have stored (additional : Entries Item) :
      C.Minds live (rest additional) fun o => [o.response] := by
    refine .appendOnly (checkedEntries_appendOnly main _) fun _ => .appendOnly (.plant _) fun _ => ?_
    refine .appendOnly (.newObject _) fun output => ?_
    refine (setNamed_minds hc (.inr ⟨_,rfl⟩) hn).bind fun _ => .pure ?_
    simp [Among]
  split
  · exact .appendOnly (AppendOnly.closed.pure _) stored
  · exact .appendOnly (.newList _) fun _ => .appendOnly (AppendOnly.closed.pure _) stored

theorem renameFile_minds (hc : run.context = context) (hw : C.Allows .renameFile node) :
    C.Minds live (renameFile run node) fun o => [o.response] := by
  unfold renameFile
  refine config_minds hw fun config hn =>
    .appendOnly (baseName_readOnly run config).appendOnly fun base => ?_
  have free (k : FileKind) : C.Free (renamedKey k) :=
    hn _ (List.mem_append_left _ (List.mem_map_of_mem (by cases k <;> decide)))
  refine Respects.bind (a := fun _ => []) (Respects.closed.forM fun e he => ?_) fun _ => ?_
  · rcases List.mem_append.1 he with he | he
    · obtain ⟨k,-,rfl⟩ := List.mem_map.1 he
      exact set_minds hc (.inr ⟨_,rfl⟩) (free k)
    · simp only [List.mem_cons,List.not_mem_nil,or_false] at he
      rcases he with rfl | rfl
      · exact set_minds hc (.inr ⟨_,rfl⟩) (hn _ (by simp [StepKind.assigns]))
      · exact set_minds hc (.inr ⟨_,rfl⟩) (hn _ (by simp [StepKind.assigns]))
  · exact .appendOnly (.newObject _) fun _ => .pure (by simp [Among])

theorem sftpUpload_minds (hc : run.context = context) (hw : C.Allows .sftpUpload node) :
    C.Minds live (sftpUpload run node) fun o => [o.response] := by
  unfold sftpUpload
  refine config_minds hw fun config hn => .appendOnly (.of _) fun kind => ?_
  refine .appendOnly (bytesOf_readOnly run kind).appendOnly fun data => ?_
  refine .appendOnly (uploadName_readOnly run config kind).appendOnly fun name => ?_
  refine .appendOnly (.require _) fun _ => .appendOnly (.sftpProfile _) fun p => ?_
  refine .appendOnly (uploadDirectory_readOnly run config p kind).appendOnly fun directory => ?_
  refine .appendOnly (.require _) fun _ => .appendOnly (.upload _ _ _ _) fun path => ?_
  refine (Respects.plant name).bind fun nameItem => ?_
  refine guard_minds (set_minds hc (.inl List.mem_cons_self) (hn _ (by simp [StepKind.assigns])))
    fun _ => .appendOnly (.plant _) fun _ => .appendOnly (.newObject _) fun _ => .pure ?_
  simp [Among]

theorem emailAction_minds : C.Minds live (emailAction run node) fun o => [o.response] := by
  unfold emailAction
  refine .appendOnly (.read _) fun config =>
    .appendOnly (scope_readOnly run).appendOnly fun scope => ?_
  refine .appendOnly (.of _) fun recipients => guard_minds (.throw _) fun _ => ?_
  refine .appendOnly (copyTo_readOnly run config _).appendOnly fun cc =>
    .appendOnly (.of _) fun subject => ?_
  refine .appendOnly (.of _) fun body =>
    .appendOnly (attachmentOf_readOnly run config).appendOnly fun file => ?_
  refine .appendOnly (.require _) fun _ => .appendOnly (.mailProfile _) fun p => ?_
  refine .appendOnly (.require _) fun _ => .appendOnly (.of _) fun copies =>
    .appendOnly (.of _) fun part => ?_
  refine .appendOnly (.sendMail _ _) fun _ => .appendOnly (.plant _) fun output => .pure ?_
  simp [Among]

theorem imaging_minds (hc : run.context = context) (hw : C.Allows .imaging node) :
    C.Minds live (imaging run node) fun o => [o.response] := by
  unfold imaging
  refine config_minds hw fun config hn => .appendOnly (scope_readOnly run).appendOnly fun scope => ?_
  refine .appendOnly (.of _) fun detail => ?_
  extract_lets mode bucket type
  refine refuse_minds (.of _) fun _ => .appendOnly (.require _) fun _ => ?_
  refine .growsStore (GrowsStore.attempt ?_) fun done => ?_
  · split
    · exact (AppendOnly.get _ _ _).toGrowsStore
    · exact (submission_appendOnly run config scope detail).toGrowsStore.bind fun s => .put _ _ s
  · split
    · exact .appendOnly (.of _) fun f => .throw f
    · refine .appendOnly (.plant _) fun output => ?_
      refine Respects.bind (a := fun _ => []) (Respects.closed.forM fun k hk => ?_) fun _ => ?_
      · simp only
        split
        · refine (Respects.plant _).bind fun x => ?_
          exact set_minds hc (.inl List.mem_cons_self) (hn _ (List.mem_map_of_mem hk))
        · exact Respects.closed.pure _
      · exact .pure (by simp [Among])

theorem multipartUpload_minds
    (hparts : ∀ scope filename, C.Minds live (formParts run node scope filename) fun _ => []) :
    C.Minds live (multipartUpload run node) fun o => [o.response] := by
  unfold multipartUpload
  refine .appendOnly (.read _) fun config =>
    .appendOnly (scope_readOnly run).appendOnly fun scope => ?_
  refine .appendOnly (formTarget_appendOnly config scope) fun target =>
    guard_minds (.throw _) fun _ => ?_
  refine .appendOnly (formFilename_appendOnly run config scope) fun filename => ?_
  refine (hparts scope filename).bind fun built => .appendOnly (.require _) fun _ => ?_
  refine .appendOnly (.send _) fun r => refuse_minds (formRefused_appendOnly r _ _) fun _ => ?_
  exact .appendOnly (.plant _) fun _ => .appendOnly (.newObject _) fun output =>
    .pure (by simp [Among])

theorem listed_in {α : Type} {v : View α} {T : α → Prop} (h : v.Hereditary T) {x : α} (hx : T x) :
    ∀ c ∈ Match.listed v x, T c := by
  have hb := h.below x hx
  unfold Match.listed
  split
  · rename_i xs hl
    rw [hl] at hb
    exact hb
  · exact List.forall_mem_singleton.2 hx

theorem candidates_in {α : Type} {v : View α} {T : α → Prop} (h : v.Hereditary T) {body : α}
    (hb : T body) {path : Value} {cs : List α} (hc : Match.candidates v body path = .ok cs) :
    ∀ c ∈ cs, T c := by
  have all := listed_in h hb
  unfold Match.candidates at hc
  split at hc
  · split at hc
    · cases hc
      exact all
    · split at hc
      · rename_i x hx
        cases hc
        split
        · simp
        · exact listed_in h (h.lookup hb hx)
      · cases hc
        simp
  · split at hc <;> cases hc
    · exact all
    · simp
  · split at hc <;> cases hc
    exact all

theorem candidates_minds {body : Item} (hb : body ∈ live) (path : Value)
    {k : List Item → Work α} {named : α → List Item}
    (hk : ∀ cs, C.Minds (cs ++ live) (k cs) named) :
    C.Minds live (Work.store >>= fun s => Work.of (Match.candidates s.view body path) >>= k)
      named :=
  .find (fun _ _ hQ _ hcs => candidates_in hQ.region.hereditary (hQ.mem body hb) hcs) hk

def lookupItems (l : Lookup) : List Item := l.response.body :: l.candidates

theorem resolveSource_minds (config : Value) :
    C.Minds live (resolveSource run node config) fun _ => [] := by
  refine .appendOnly (scope_readOnly run).appendOnly fun scope => .appendOnly (.of _) fun source => ?_
  refine .appendOnly (.plant _) fun input => .appendOnly (.plant _) fun output => ?_
  exact (phase_minds _ _ _ _ _).bind fun _ => Respects.closed.pure _

theorem refuseLookup_minds (request : Entries Value) (url : String) (r : Response) :
    C.Minds live (refuseLookup run node request url r) fun _ => [] := by
  refine .appendOnly (.read _) fun body => .appendOnly (.of _) fun text => ?_
  refine .appendOnly (.plant _) fun input => .appendOnly (.plant _) fun output => ?_
  exact (phase_minds _ _ _ _ _).bind fun _ => .throw _

theorem lookUp_gives {config : Value} {Q : Entries Value → Prop} {P : Lookup → Prop}
    (hQ : Gives Q (resolveSource run node config))
    (hP : ∀ source url method r candidates, Q source →
      P ⟨.ofConfig config,source,url,method,r,candidates⟩) :
    Gives P (lookUp run node config) := by
  unfold lookUp
  refine .next hQ fun source hsource => .bind fun scope => .bind fun p => .bind fun method => ?_
  refine .bind fun url => .bind fun _ => .bind fun r => ?_
  extract_lets request rest
  have found : ∀ u, Gives P (rest u) := fun u =>
    .bind fun s => .bind fun candidates => .bind fun input => .bind fun shown =>
      .bind fun output => .bind fun _ => .pure (hP source url method r candidates hsource)
  split
  · exact .bind found
  · exact found ⟨⟩

theorem lookUp_settings (config : Value) :
    Gives (fun l => l.settings = .ofConfig config) (lookUp run node config) :=
  lookUp_gives (Q := fun _ => True) (fun _ _ _ => trivial) fun _ _ _ _ _ _ => rfl

theorem lookUp_minds (config : Value) :
    C.Minds live (lookUp run node config) lookupItems := by
  unfold lookUp
  refine (resolveSource_minds config).bind fun source => ?_
  refine .appendOnly (scope_readOnly run).appendOnly fun scope => ?_
  refine .appendOnly (profileOf_appendOnly config _) fun p => .appendOnly (.of _) fun method => ?_
  refine .appendOnly (.of _) fun url => .appendOnly (.require _) fun _ =>
    (Respects.send _).bind fun r => ?_
  refine guard_minds (refuseLookup_minds _ url r) fun _ => ?_
  refine candidates_minds List.mem_cons_self _ fun candidates => ?_
  refine .appendOnly (.plant _) fun input => ?_
  refine .appendOnly (shownCandidates_appendOnly candidates) fun shown =>
    .appendOnly (.newObject _) fun _ => ?_
  refine (phase_minds _ _ _ _ _).bind fun _ => .pure fun i hi => .inl ?_
  rcases List.mem_cons.1 hi with rfl | hi
  · simp
  · change i ∈ candidates ++ _
    exact List.mem_append_left _ hi

structure Decides (C : Custody context) (config : Value) (s : DecisionSettings) : Prop where
  output : ∀ k ∈ Mapping.entryOf s.outputName, C.Free k
  record : ∀ k ∈ Mapping.recorded (config.field "responseDataMappings"), C.Free k

theorem storeOutput_minds {x : Item} (hc : run.context = context) (hx : Among live x)
    {s : DecisionSettings} (hs : ∀ k ∈ Mapping.entryOf s.outputName, C.Free k) :
    C.Minds live (storeOutput run s x) fun _ => [] := by
  subst hc
  exact (Respects.edit (storeOutput_respects hx hs)).bind fun _ => noteName_minds run _

theorem choose_minds {matched : Item} (hc : run.context = context) (hm : matched ∈ live)
    {config : Value} {s : DecisionSettings} (hs : Decides C config s) :
    C.Minds live (choose run config s matched) fun _ => [] := by
  unfold choose
  extract_lets rest
  have stored {live : List Item} {x : Item} (hm : matched ∈ live) (hx : Among live x) :
      C.Minds live (rest x) fun _ => [] := by
    refine (storeOutput_minds hc hx hs.output).bind fun _ => ?_
    subst hc
    exact (Respects.edit (recordAll_respects (.inl hm) hs.record)).bind fun _ =>
      Respects.closed.pure x
  split
  · refine (Respects.edit (lookup_respects (.inl hm) _)).bind fun x => ?_
    exact stored (List.mem_cons_of_mem _ hm) (.inl List.mem_cons_self)
  · refine Respects.bind (a := fun x => [x]) (.pure (by simp [Among,hm])) fun x => ?_
    exact stored (List.mem_cons_of_mem _ hm) (.inl List.mem_cons_self)

theorem decideNone_minds {l : Lookup} (hl : ∀ i ∈ lookupItems l, i ∈ live) :
    C.Minds live (decideNone l) fun o => [o.response] := by
  unfold decideNone
  refine guard_minds (.throw _) fun _ => .appendOnly (.newObject _) fun _ => .pure ?_
  exact List.forall_mem_singleton.2 (.inl (hl _ List.mem_cons_self))

section Decision

variable {l : Lookup} {config : Value} (hc : run.context = context)
  (hl : ∀ i ∈ lookupItems l, i ∈ live) (hs : Decides C config l.settings)

include hc hl hs

theorem decideSingle_minds {matched : Item} (hm : matched ∈ live) :
    C.Minds live (decideSingle run node config l matched) fun o => [o.response] := by
  refine (choose_minds hc hm hs).bind fun x => ?_
  refine .appendOnly (.plant _) fun name => .appendOnly (.plant _) fun input => ?_
  refine .appendOnly (.newObject _) fun result => (phase_minds _ _ _ _ _).bind fun _ => ?_
  refine .appendOnly (.newObject _) fun _ => .pure ?_
  exact List.forall_mem_singleton.2 (.inl (hl _ List.mem_cons_self))

theorem decideUnmatched_minds (input : Item) (result : Entries Value) :
    C.Minds live (decideUnmatched run node l input result) fun o => [o.response] := by
  unfold decideUnmatched
  refine .appendOnly (.of _) fun message => ?_
  split
  · exact .appendOnly (.plant _) fun _ => (phase_minds _ _ _ _ _).bind fun _ => .throw _
  · refine .appendOnly (.plant _) fun _ => (phase_minds _ _ _ _ _).bind fun _ => ?_
    refine (storeOutput_minds hc (.inr ⟨_,rfl⟩) hs.output).bind fun _ => ?_
    refine .appendOnly (.plant _) fun parts => .appendOnly .store fun s => ?_
    refine .appendOnly (.newObject _) fun _ => .pure ?_
    exact List.forall_mem_singleton.2 (.inl (hl _ List.mem_cons_self))

omit hc hl hs in
theorem candidateAt_mem {candidates : List Item} {result : Entries Value} {c : Item}
    (h : candidateAt? candidates result = some c) : c ∈ candidates := by
  unfold candidateAt? at h
  split at h
  · split at h
    · cases h
    · exact List.mem_of_getElem? h
  · cases h

theorem decideAsked_minds :
    C.Minds live (decideAsked run node config l) fun o => [o.response] := by
  refine .appendOnly .provider fun provider => .appendOnly (ask_appendOnly l) fun result => ?_
  refine .appendOnly (.plant _) fun input => ?_
  split
  · exact decideUnmatched_minds hc hl hs input result
  · rename_i matched hm
    have hm : matched ∈ live := hl _ (List.mem_cons_of_mem _ (candidateAt_mem hm))
    refine (choose_minds hc hm hs).bind fun x => ?_
    refine .appendOnly (.plant _) fun _ => .appendOnly (.plant _) fun _ => ?_
    refine .appendOnly (.newObject _) fun _ => ?_
    refine (phase_minds _ _ _ _ _).bind fun _ => .appendOnly (.newObject _) fun _ => .pure ?_
    exact List.forall_mem_singleton.2 (.inl (hl _ List.mem_cons_self))

end Decision

theorem aiDecision_minds (hc : run.context = context) (hw : C.Allows .aiDecision node) :
    C.Minds live (aiDecision run node) fun o => [o.response] := by
  unfold aiDecision
  refine config_minds hw fun config hn => (lookUp_minds config).behind fun l hsome => ?_
  obtain ⟨w,w',hok⟩ := hsome
  have hset : l.settings = .ofConfig config := lookUp_settings config w l (congrArg Prod.fst hok)
  have hs : Decides C config l.settings := by
    rw [hset]
    exact ⟨fun k hk => hn k (List.mem_append_left _ hk),
      fun k hk => hn k (List.mem_append_right _ hk)⟩
  have hl : ∀ i ∈ lookupItems l, i ∈ lookupItems l ++ live := fun i hi => List.mem_append_left _ hi
  split
  · exact decideNone_minds hl
  · rename_i c hcs
    split
    · exact decideSingle_minds hc hl hs (hl c (by simp [lookupItems,hcs]))
    · exact decideAsked_minds hc hl hs
  · exact decideAsked_minds hc hl hs

def fieldEntry (m : Value) : List String := Mapping.entryOf (m.field "fieldName")

section Fields

variable {F : String → Prop} {ms : List Value} (hm : ∀ m ∈ ms, ∀ k ∈ fieldEntry m, F k)
  {done : Filled} (hd : ∀ e ∈ done, F e.1)

include hm

theorem ofKind_entries (kind : String) : ∀ m ∈ ofKind kind ms, ∀ k ∈ fieldEntry m, F k :=
  fun m hmem => hm m (List.mem_filter.1 hmem).1

include hd

theorem fillAll_entries {value : Value → Except Fault Value} {filled : Filled}
    (h : ms.foldlM (fillField value) done = .ok filled) : ∀ e ∈ filled, F e.1 := by
  refine of_foldlM (P := fun es => ∀ e ∈ es, F e.1) (fun x y m hmem hy hx => ?_) hd h
  unfold fillField at hy
  simp only at hy
  split at hy
  · cases hy
    exact hx
  · obtain ⟨raw,-,hy⟩ := eq_ok_of_bind hy
    obtain ⟨shown,-,hy⟩ := eq_ok_of_bind hy
    obtain ⟨k,hk,hy⟩ := eq_ok_of_bind hy
    cases hy
    intro e he
    rcases Entries.mem_put e he with he | rfl
    · exact hx e he
    · exact hm m hmem k (mem_entryOf hk)

theorem askFields_entries : Gives (fun filled => ∀ e ∈ filled, F e.1)
    (askFields run node ms done) := by
  refine .bind fun provider => .bind fun subject => .bind fun body => .bind fun question => ?_
  refine .bind fun text => .bind fun reply => ?_
  extract_lets kept
  refine .of_bind fun filled hf => .bind fun _ => .bind fun _ => .bind fun input => ?_
  refine .bind fun _ => .bind fun output => .bind fun _ => .pure ?_
  exact fillAll_entries hm hd hf

end Fields

theorem askFields_minds (mappings : List Value) (done : Filled) :
    C.Minds live (askFields run node mappings done) fun _ => [] := by
  refine .appendOnly .provider fun provider => ?_
  refine .appendOnly (entryValue_readOnly run _).appendOnly fun subject => ?_
  refine .appendOnly (entryValue_readOnly run _).appendOnly fun body =>
    .appendOnly (.of _) fun question => ?_
  refine .appendOnly (.complete _ _ _) fun text => .appendOnly (.of _) fun reply => ?_
  extract_lets kept
  refine .appendOnly (.of _) fun filled => .appendOnly (.of _) fun _ =>
    .appendOnly (.of _) fun _ => ?_
  refine .appendOnly (.plant _) fun input => .appendOnly (.of _) fun _ => ?_
  refine .appendOnly (.plant _) fun output => ?_
  exact (phase_minds _ _ _ _ _).bind fun _ => Respects.closed.pure _

theorem writeFields_minds (hc : run.context = context) {fields : Filled}
    (hf : ∀ e ∈ fields, C.Free e.1) : C.Minds live (writeFields run fields) fun _ => [] := by
  have hensure : C.Minds live
      (Work.edit (Edit.run' fun s => Context.ensureExtracted s run.context)) fun x => [x] := by
    subst hc
    exact Respects.edit ensureExtracted_respects
  refine hensure.bind fun extracted => Respects.closed.forM fun e he => ?_
  refine (Respects.plant e.2).bind fun x => ?_
  refine (set_minds hc (.inl List.mem_cons_self) (hf e he)).bind fun _ => ?_
  exact .edit (respects_of_leads fun _ _ => Leads.set (by simp) (.inl List.mem_cons_self) _)

theorem noteFields_minds (mappings : List Value) :
    C.Minds live (noteFields run mappings) fun _ => [] := by
  refine Respects.closed.forM fun m _ => ?_
  simp only
  split
  · exact noteName_minds run _
  · exact Respects.closed.pure _

theorem readEmail_minds (hc : run.context = context) (hw : C.Allows .readEmail node) :
    C.Minds live (readEmail run node) fun o => [o.response] := by
  unfold readEmail
  refine config_minds hw fun config hn => .of_bind fun all hall => ?_
  have hm : ∀ m ∈ all.filter Value.isObject, ∀ k ∈ fieldEntry m, C.Free k := by
    intro m hmem k hk
    refine hn k (List.mem_flatMap.2 ⟨m,?_,hk⟩)
    rw [listed_of_ok hall]
    exact (List.mem_filter.1 hmem).1
  simp only
  split
  · exact .appendOnly (.plant _) fun _ => .pure (by simp [Among])
  · generalize all.filter Value.isObject = ms at hm
    unfold readMappings
    have hknown (kind : String) := ofKind_entries hm kind
    refine .of_bind fun literal hliteral =>
      .appendOnly (scope_readOnly run).appendOnly fun scope => ?_
    have hliteral := fillAll_entries (hknown _) (by simp) hliteral
    refine .of_bind fun done hdone => .appendOnly (.plant _) fun input => ?_
    have hdone := fillAll_entries (hknown _) hliteral hdone
    refine .appendOnly (.plant _) fun output => (phase_minds _ _ _ _ _).bind fun _ => ?_
    extract_lets rest
    have written {fields : Filled} (hf : ∀ e ∈ fields, C.Free e.1) :
        C.Minds live (rest fields) fun o => [o.response] := by
      refine (writeFields_minds hc hf).bind fun _ => (noteFields_minds _).bind fun _ => ?_
      exact .appendOnly (.plant _) fun _ => .pure (by simp [Among])
    split
    · exact written hdone
    · refine (askFields_minds _ _).behind fun fields hsome => ?_
      obtain ⟨w,w',hok⟩ := hsome
      exact written (askFields_entries (hknown _) hdone w fields (congrArg Prod.fst hok))

/-- Every step minds every custody in which the entries that it assigns are free. What a form does
is what its parts do. -/
theorem perform_minds (k : StepKind) (hc : run.context = context) (hw : C.Allows k node)
    (hparts : k = .multipartUpload → ∀ scope filename,
      C.Minds live (formParts run node scope filename) fun _ => []) :
    C.Minds live (k.perform run node) fun o => [o.response] := by
  cases k with
  | apiCall => exact apiCall_minds hc hw
  | apiEndpoint => exact apiEndpoint_minds hc hw
  | conditionalCheck => exact conditionalCheck_minds hc hw
  | renameFile => exact renameFile_minds hc hw
  | sftpUpload => exact sftpUpload_minds hc hw
  | emailAction => exact emailAction_minds
  | multipartUpload => exact multipartUpload_minds (hparts rfl)
  | aiDecision => exact aiDecision_minds hc hw
  | imaging => exact imaging_minds hc hw
  | readEmail => exact readEmail_minds hc hw

end StepGraph.Steps
