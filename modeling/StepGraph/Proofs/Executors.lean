import StepGraph.Proofs.Steps

/-!
Every step touches the context last: whatever a step checks or asks for comes before its first write
to the context.
-/
namespace StepGraph.Steps

open Attempt Work Edit

variable {α β : Type} {run : Run} {node : Step Item}

theorem ContextLast.appendOnly {p : Work α} {f : α → Work β} (hp : AppendOnly p)
    (hf : ∀ x, ContextLast run node (f x)) : ContextLast run node (p >>= f) :=
  .bind (.appendOnly hp) hf

theorem ContextLast.check {c : Prop} {_ : Decidable c} {p : Work PUnit} {f : PUnit → Work α}
    (hp : AppendOnly p) (hf : ∀ u, ContextLast run node (f u)) :
    ContextLast run node (if c then p >>= f else f ⟨⟩) := by
  split
  · exact .appendOnly hp hf
  · exact hf ⟨⟩

theorem ContextLast.refuse {γ : Type} {c : Prop} {_ : Decidable c} {q : Work γ} {g : γ → Fault}
    {f : PUnit → Work α} (hq : AppendOnly q) (hf : ∀ u, ContextLast run node (f u)) :
    ContextLast run node (if c then q >>= fun t => throw (g t) >>= f else f ⟨⟩) := by
  split
  · exact .appendOnly hq fun t => .appendOnly (.throw (g t)) hf
  · exact hf ⟨⟩

theorem refuse_readOnly {γ : Type} {c : Prop} {_ : Decidable c} {q : Work γ} {g : γ → Fault}
    {f : PUnit → Work α} (hq : ReadOnly q) (hf : ∀ u, ReadOnly (f u)) :
    ReadOnly (if c then q >>= fun t => throw (g t) >>= f else f ⟨⟩) := by
  split
  · exact hq.bind fun t => (ReadOnly.throw (g t)).bind hf
  · exact hf ⟨⟩

theorem ContextLast.either {c : Prop} {_ : Decidable c} {p q : Work α} {f : α → Work β}
    (hp : AppendOnly p) (hq : AppendOnly q) (hf : ∀ x, ContextLast run node (f x)) :
    ContextLast run node (if c then p >>= f else q >>= f) := by
  split
  · exact .appendOnly hp hf
  · exact .appendOnly hq hf

theorem scope_readOnly (run : Run) : ReadOnly run.scope :=
  (ReadOnly.scope _).bind fun _ => ReadOnly.closed.pure _

theorem scope_callFree (run : Run) : CallFree run.scope :=
  ⟨(scope_readOnly run).appendOnly,fun _ => rfl⟩

theorem responseScope_readOnly (run : Run) : ReadOnly run.responseScope :=
  (ReadOnly.scope _).bind fun _ => ReadOnly.closed.pure _

theorem firstEntry_readOnly (run : Run) (ks : List String) : ReadOnly (run.firstEntry ks) := by
  induction ks with
  | nil => exact ReadOnly.closed.pure _
  | cons k ks ih =>
    cases ks with
    | nil => exact entryValue_readOnly run k
    | cons k' ks =>
      refine (entryValue_readOnly run k).bind fun v => ?_
      split
      · exact ReadOnly.closed.pure _
      · exact ih

theorem dataOf_readOnly (run : Run) : ReadOnly (dataOf run) :=
  (entryValue_readOnly run _).bind fun _ => .of _

theorem bytesOf_readOnly (run : Run) (kind : FileKind) : ReadOnly (bytesOf run kind) := by
  cases kind
  all_goals first | exact pdfOf_readOnly run | exact dataOf_readOnly run

theorem profileOf_appendOnly (config : Value) (default : String) :
    AppendOnly (profileOf config default) := (AppendOnly.require _).bind fun _ => .api _ _

theorem resolveName_readOnly (run : Run) (template : Value) : ReadOnly (resolveName run template) :=
  (scope_readOnly run).bind fun _ => (responseScope_readOnly run).bind fun _ => .of _

theorem fetch_appendOnly (request : HttpRequest) : AppendOnly (fetch request) := by
  refine (AppendOnly.send request).bind fun r => ?_
  split
  · exact AppendOnly.closed.pure _
  · exact ((AppendOnly.read _).bind fun _ => AppendOnly.closed.pure _).bind fun _ => .throw _

theorem set_failsOnData (run : Run) (k : String) (x : Item) : FailsOnData (run.set k x) := .run' _

theorem noteName_failsOnData (run : Run) (name : Value) : FailsOnData (run.noteName name) := by
  unfold Run.noteName
  split
  · exact FailsOnData.closed.pure _
  · exact ⟨⟨fun _ _ => rfl,fun _ => rfl⟩,fun w f hf => by cases hf⟩

theorem setNamed_failsOnData (run : Run) (name : Value) (x : Item) :
    FailsOnData (run.setNamed name x) :=
  (FailsOnData.of (.keyOf name)).bind fun k => (set_failsOnData run k x).bind fun _ =>
    noteName_failsOnData run name

theorem applyMappings_failsOnData (run : Run) (config : Value) (response : Item) :
    FailsOnData (applyMappings run config response) := by
  refine FailsOnData.closed.map (.edit ?_) _
  refine (dataFaultsOnly_of (.optionalParts _)).bind fun ms => ?_
  exact Never.closed.foldlM (fun applied m => dataFaultsOnly_respond _ _ applied m) ms []

theorem apiCall_contextLast (run : Run) (node : Step Item) :
    ContextLast run node (apiCall run node) := by
  unfold apiCall
  refine .appendOnly (.read _) fun config =>
    .appendOnly (scope_readOnly run).appendOnly fun scope => ?_
  refine .appendOnly (.require _) fun _ => .appendOnly (.of _) fun method =>
    .appendOnly (.of _) fun url => ?_
  refine .appendOnly (.of _) fun headers => .appendOnly (.of _) fun body => ?_
  refine .appendOnly (entry_readOnly run _).appendOnly fun _ =>
    .appendOnly (.newObject _) fun input => ?_
  refine .appendOnly (fetch_appendOnly _) fun r => .touchesContext ?_
  exact .bind (.failsOnData (applyMappings_failsOnData run config r.body)) fun _ =>
    TouchesContext.closed.pure _

theorem apiEndpoint_contextLast (run : Run) (node : Step Item) :
    ContextLast run node (apiEndpoint run node) := by
  unfold apiEndpoint
  refine .appendOnly (.read _) fun config =>
    .appendOnly (scope_readOnly run).appendOnly fun scope => ?_
  refine .appendOnly (.require _) fun _ => .appendOnly (profileOf_appendOnly config _) fun p => ?_
  refine .refuse (.of _) fun _ => .appendOnly (.of _) fun method => .appendOnly (.of _) fun url => ?_
  refine .either (AppendOnly.closed.pure _) (.of _) fun body => ?_
  refine .appendOnly (fetch_appendOnly _) fun r => .touchesContext ?_
  refine .bind (.failsOnData (applyMappings_failsOnData run config r.body)) fun _ => ?_
  exact .bind (.failsOnData (.newObject _)) fun _ => TouchesContext.closed.pure _

theorem check_appendOnly (run : Run) (path : String) (operator expected : Value) :
    AppendOnly (check run path operator expected) := by
  refine AppendOnly.store.bind fun s => ?_
  exact (AppendOnly.read _).bind fun _ => (AppendOnly.of _).bind fun _ => AppendOnly.closed.pure _

theorem checkFurther_appendOnly (run : Run) (c : Value) : AppendOnly (checkFurther run c) :=
  (AppendOnly.closed.map (.of _) _).bind fun _ => (AppendOnly.of _).bind fun _ =>
    check_appendOnly run _ _ _

theorem checkedEntries_appendOnly (c : Checked) (met : Bool) : AppendOnly (c.entries met) :=
  (AppendOnly.plant _).bind fun _ => (AppendOnly.plant _).bind fun _ => AppendOnly.closed.pure _

theorem conditionalCheck_contextLast (run : Run) (node : Step Item) :
    ContextLast run node (conditionalCheck run node) := by
  unfold conditionalCheck
  refine .appendOnly (.read _) fun config => ?_
  refine .appendOnly ((AppendOnly.of _).bind fun _ => check_appendOnly run _ _ _) fun main => ?_
  refine .appendOnly (.of _) fun more => ?_
  refine .appendOnly (AppendOnly.closed.mapM fun c _ => checkFurther_appendOnly run c)
    fun further => ?_
  refine .either (AppendOnly.closed.pure _) (.of _) fun met => ?_
  refine .appendOnly (AppendOnly.closed.mapM fun c _ =>
    (checkedEntries_appendOnly c _).bind fun _ => .newObject _) fun results => ?_
  extract_lets rest
  have stored (additional : Entries Item) : ContextLast run node (rest additional) := by
    refine .appendOnly (checkedEntries_appendOnly main _) fun _ => .appendOnly (.plant _) fun _ => ?_
    refine .appendOnly (.newObject _) fun output => .touchesContext ?_
    exact .bind (.failsOnData (setNamed_failsOnData run _ _)) fun _ => TouchesContext.closed.pure _
  split
  · exact .appendOnly (AppendOnly.closed.pure _) stored
  · exact .appendOnly (.newList _) fun _ => .appendOnly (AppendOnly.closed.pure _) stored

theorem baseName_readOnly (run : Run) (config : Value) : ReadOnly (baseName run config) := by
  unfold baseName
  refine (resolveName_readOnly run _).bind fun first => ?_
  extract_lets fallback useFallback rest
  have named (resolved : String) : ReadOnly (rest resolved) := by
    refine refuse_readOnly (.of _) fun _ => ?_
    simp only
    split
    · exact ReadOnly.moment.bind fun _ => ReadOnly.closed.pure _
    · exact ReadOnly.closed.pure _
  split
  · exact (resolveName_readOnly run _).bind named
  · exact (ReadOnly.closed.pure _).bind named

theorem renameFile_contextLast (run : Run) (node : Step Item) :
    ContextLast run node (renameFile run node) := by
  unfold renameFile
  refine .appendOnly (.read _) fun config =>
    .appendOnly (baseName_readOnly run config).appendOnly fun base => ?_
  refine .touchesContext
    (.bind (.failsOnData (FailsOnData.closed.forM fun e _ => set_failsOnData run _ _)) fun _ => ?_)
  exact .bind (.failsOnData (.newObject _)) fun _ => TouchesContext.closed.pure _

theorem responseName_readOnly (run : Run) (config : Value) (kind : FileKind) :
    ReadOnly (responseName? run config kind) := by
  unfold responseName?
  simp only
  split
  · exact ReadOnly.closed.pure _
  · refine (ReadOnly.lookup _ _).bind fun i => (ReadOnly.read i).bind fun v => ?_
    split
    · exact ReadOnly.closed.pure _
    · exact (ReadOnly.of _).bind fun _ => ReadOnly.closed.pure _

theorem uploadName_readOnly (run : Run) (config : Value) (kind : FileKind) :
    ReadOnly (uploadName run config kind) := by
  unfold uploadName
  refine (responseName_readOnly run config kind).bind fun given => ?_
  split
  · exact ReadOnly.closed.pure _
  · refine (entryValue_readOnly run _).bind fun renamed => ?_
    split
    · exact ReadOnly.closed.pure _
    · refine (entryValue_readOnly run _).bind fun pdf => ?_
      split
      · exact (ReadOnly.of _).bind fun _ => ReadOnly.closed.pure _
      · simp only
        split
        · exact (ReadOnly.of _).bind fun _ => ReadOnly.closed.pure _
        · exact ReadOnly.closed.pure _

theorem uploadDirectory_readOnly (run : Run) (config : Value) (p : SftpSettings) (kind : FileKind) :
    ReadOnly (uploadDirectory run config p kind) := by
  unfold uploadDirectory
  simp only
  split
  · exact resolveName_readOnly run _
  · exact ReadOnly.closed.pure _

theorem sftpUpload_contextLast (run : Run) (node : Step Item) :
    ContextLast run node (sftpUpload run node) := by
  unfold sftpUpload
  refine .appendOnly (.read _) fun config => .appendOnly (.of _) fun kind => ?_
  refine .appendOnly (bytesOf_readOnly run kind).appendOnly fun data => ?_
  refine .appendOnly (uploadName_readOnly run config kind).appendOnly fun name =>
    .appendOnly (.require _) fun _ => ?_
  refine .appendOnly (.sftpProfile _) fun p => ?_
  refine .appendOnly (uploadDirectory_readOnly run config p kind).appendOnly fun directory => ?_
  refine .appendOnly (.require _) fun _ => .appendOnly (.upload _ _ _ _) fun path => ?_
  refine .appendOnly (.plant _) fun nameItem => .touchesContext ?_
  refine TouchesContext.closed.guard (.failsOnData (set_failsOnData run _ _)) fun _ => ?_
  refine .bind (.failsOnData (.plant _)) fun _ => .bind (.failsOnData (.newObject _)) fun _ => ?_
  exact TouchesContext.closed.pure _

theorem copyTo_readOnly (run : Run) (config : Value) (recipients : List String) :
    ReadOnly (copyTo run config recipients) := by
  unfold copyTo
  split
  · exact ReadOnly.closed.pure _
  · exact (firstEntry_readOnly run _).bind fun _ => ReadOnly.closed.pure _

theorem attachmentOf_readOnly (run : Run) (config : Value) : ReadOnly (attachmentOf run config) := by
  unfold attachmentOf
  split
  · refine ReadOnly.closed.map ?_ _
    unfold attached
    split
    · exact (entryValue_readOnly run _).bind fun _ => (dataOf_readOnly run).bind fun _ =>
        ReadOnly.closed.pure _
    · exact (firstEntry_readOnly run _).bind fun _ => (pdfOf_readOnly run).bind fun _ =>
        ReadOnly.closed.pure _
  · exact ReadOnly.closed.pure _

theorem emailAction_contextLast (run : Run) (node : Step Item) :
    ContextLast run node (emailAction run node) := by
  unfold emailAction
  refine .appendOnly (.read _) fun config =>
    .appendOnly (scope_readOnly run).appendOnly fun scope => ?_
  refine .appendOnly (.of _) fun recipients => .check (.throw _) fun _ => ?_
  refine .appendOnly (copyTo_readOnly run config _).appendOnly fun cc =>
    .appendOnly (.of _) fun subject => ?_
  refine .appendOnly (.of _) fun body =>
    .appendOnly (attachmentOf_readOnly run config).appendOnly fun file => ?_
  refine .appendOnly (.require _) fun _ => .appendOnly (.mailProfile _) fun p => ?_
  refine .appendOnly (.require _) fun _ => .appendOnly (.of _) fun copies =>
    .appendOnly (.of _) fun part => ?_
  refine .appendOnly (.sendMail _ _) fun _ => .appendOnly (.plant _) fun output => ?_
  exact .keepsContext (KeepsContext.closed.pure _)

theorem submission_appendOnly (run : Run) (config : Value) (scope : Scope) (detail : String) :
    AppendOnly (submission run config scope detail) := by
  unfold submission
  refine (AppendOnly.of _).bind fun bill => (pdfOf_readOnly run).appendOnly.bind fun data => ?_
  refine (firstEntry_readOnly run _).appendOnly.bind fun name => ?_
  extract_lets rest
  have filed (path : Option String) : AppendOnly (rest path) := AppendOnly.closed.pure _
  split
  · exact (AppendOnly.closed.map (.of _) _).bind filed
  · exact (AppendOnly.closed.pure _).bind filed

theorem imaging_contextLast (run : Run) (node : Step Item) (hk : node.kind? = some .imaging) :
    ContextLast run node (imaging run node) := by
  unfold imaging
  refine .appendOnly (.read _) fun config =>
    .appendOnly (scope_readOnly run).appendOnly fun scope => ?_
  refine .appendOnly (.of _) fun detail => ?_
  extract_lets mode bucket type
  refine .refuse (.of _) fun _ => .appendOnly (.require _) fun _ => ?_
  refine .bind (.filing hk (GrowsStore.attempt ?_)) fun done => ?_
  · split
    · exact (AppendOnly.get _ _ _).toGrowsStore
    · exact (submission_appendOnly run config scope detail).toGrowsStore.bind fun s => .put _ _ s
  · split
    · exact .appendOnly (.of _) fun f => .keepsContext (.appendOnly (.throw f))
    · refine .appendOnly (.plant _) fun output =>
        .touchesContext (.bind (.failsOnData ?_) fun _ => ?_)
      · refine FailsOnData.closed.forM fun k _ => ?_
        simp only
        split
        · exact (FailsOnData.plant _).bind fun x => set_failsOnData run _ x
        · exact FailsOnData.closed.pure _
      · exact TouchesContext.closed.pure _

theorem formTarget_appendOnly (config : Value) (scope : Scope) :
    AppendOnly (formTarget config scope) := by
  unfold formTarget
  refine (AppendOnly.of _).bind fun url => ?_
  split
  · exact AppendOnly.closed.pure _
  · refine (profileOf_appendOnly config _).bind fun p => ?_
    split
    · exact AppendOnly.closed.pure _
    · exact (refuse_readOnly (.of _) fun _ => ReadOnly.closed.pure _).appendOnly

theorem formFilename_appendOnly (run : Run) (config : Value) (scope : Scope) :
    AppendOnly (formFilename run config scope) := by
  unfold formFilename
  refine (AppendOnly.of _).bind fun name => ?_
  simp only
  split
  · exact AppendOnly.closed.pure _
  · exact (firstEntry_readOnly run _).appendOnly.bind fun _ => AppendOnly.closed.pure _

theorem formRefused_appendOnly (r : Response) (url : String) (parts : List Value) :
    AppendOnly (formRefused r url parts) := (AppendOnly.read _).bind fun _ => AppendOnly.closed.pure _

theorem multipartUpload_contextLast (run : Run) (node : Step Item) :
    ContextLast run node (multipartUpload run node) := by
  unfold multipartUpload
  refine .appendOnly (.read _) fun config =>
    .appendOnly (scope_readOnly run).appendOnly fun scope => ?_
  refine .appendOnly (formTarget_appendOnly config scope) fun target => .check (.throw _) fun _ => ?_
  refine .appendOnly (formFilename_appendOnly run config scope) fun filename => ?_
  refine .bind (.parts scope filename) fun built => .appendOnly (.require _) fun _ => ?_
  refine .appendOnly (.send _) fun r => ?_
  refine .refuse (formRefused_appendOnly r _ _) fun _ => ?_
  refine .appendOnly (.plant _) fun _ => .appendOnly (.newObject _) fun output => ?_
  exact .keepsContext (KeepsContext.closed.pure _)

theorem resolveSource_keepsContext (run : Run) (node : Step Item) (config : Value) :
    KeepsContext run node (resolveSource run node config) := by
  refine .bind (.appendOnly (scope_readOnly run).appendOnly) fun scope =>
    .bind (.appendOnly (.of _)) fun source => ?_
  refine .bind (.appendOnly (.plant _)) fun input => .bind (.appendOnly (.plant _)) fun output => ?_
  exact .bind (.phase _ _ _) fun _ => KeepsContext.closed.pure _

theorem refuseLookup_keepsContext (run : Run) (node : Step Item) (request : Entries Value)
    (url : String)
    (r : Response) : KeepsContext run node (refuseLookup run node request url r) := by
  refine .bind (.appendOnly (.read _)) fun body => .bind (.appendOnly (.of _)) fun text => ?_
  refine .bind (.appendOnly (.plant _)) fun input => .bind (.appendOnly (.plant _)) fun output => ?_
  exact .refusal _ _ _ _ _

theorem shownCandidates_appendOnly (candidates : List Item) :
    AppendOnly (shownCandidates candidates) := by
  unfold shownCandidates
  split
  · exact .newList _
  · exact AppendOnly.closed.pure _

theorem storeOutput_failsOnData (run : Run) (s : DecisionSettings) (x : Item) :
    FailsOnData (storeOutput run s x) :=
  (FailsOnData.edit (dataFaultsOnly_storeOutput _ _ _)).bind fun _ => noteName_failsOnData run _

/-- Candidates are asked for behind the first phase; what goes before it settles the rest. -/
theorem lookUp_in {C : {α : Type} → Work α → Prop} (run : Run) (node : Step Item) (config : Value)
    (hs : C (resolveSource run node config))
    (hC : ∀ {α β : Type} {p : Work α} {f : α → Work β}, C p → (∀ x, KeepsContext run node (f x)) →
      C (p >>= f)) : C (lookUp run node config) := by
  unfold lookUp
  refine hC hs fun source => .bind (.appendOnly (scope_readOnly run).appendOnly) fun scope => ?_
  refine .bind (.appendOnly (profileOf_appendOnly config _)) fun p =>
    .bind (.appendOnly (.of _)) fun method => ?_
  refine .bind (.appendOnly (.of _)) fun url => .bind (.appendOnly (.require _)) fun _ => ?_
  refine .bind (.appendOnly (.send _)) fun r => ?_
  refine KeepsContext.closed.guard (refuseLookup_keepsContext run node _ url r) fun _ => ?_
  refine .bind (.appendOnly .store) fun s => .bind (.appendOnly (.of _)) fun candidates => ?_
  refine .bind (.appendOnly (.plant _)) fun input => ?_
  refine .bind (.appendOnly (shownCandidates_appendOnly candidates)) fun shown => ?_
  refine .bind (.appendOnly (.newObject _)) fun output => .bind (.phase _ _ _) fun _ => ?_
  exact KeepsContext.closed.pure _

theorem lookUp_keepsContext (run : Run) (node : Step Item) (config : Value) :
    KeepsContext run node (lookUp run node config) :=
  lookUp_in run node config (resolveSource_keepsContext run node config) .bind

theorem choose_failsOnData (run : Run) (config : Value) (s : DecisionSettings) (matched : Item) :
    FailsOnData (choose run config s matched) := by
  unfold choose
  extract_lets rest
  have stored (x : Item) : FailsOnData (rest x) := by
    refine (storeOutput_failsOnData run s x).bind fun _ => ?_
    exact (FailsOnData.edit (dataFaultsOnly_recordAll _ _ _)).bind fun _ => FailsOnData.closed.pure x
  split
  · exact (FailsOnData.edit (dataFaultsOnly_lookup _ _)).bind stored
  · exact (FailsOnData.closed.pure _).bind stored

theorem decideNone_keepsContext (l : Lookup) : KeepsContext run node (decideNone l) := by
  unfold decideNone
  refine KeepsContext.closed.guard (.appendOnly (.throw _)) fun _ => ?_
  exact .bind (.appendOnly (.newObject _)) fun _ => KeepsContext.closed.pure _

theorem decideSingle_touchesContext (run : Run) (node : Step Item) (config : Value) (l : Lookup)
    (matched : Item) : TouchesContext run node (decideSingle run node config l matched) := by
  refine .bind (.failsOnData (choose_failsOnData run config _ matched)) fun x => ?_
  refine .bind (.failsOnData (.plant _)) fun name => .bind (.failsOnData (.plant _)) fun input => ?_
  refine .bind (.failsOnData (.newObject _)) fun result => .bind (.phase _ _ _) fun _ => ?_
  exact .bind (.failsOnData (.newObject _)) fun _ => TouchesContext.closed.pure _

theorem ask_appendOnly (l : Lookup) : AppendOnly (ask l) := by
  refine (AppendOnly.closed.mapM fun c _ => AppendOnly.read c).bind fun candidates => ?_
  refine (AppendOnly.of _).bind fun question => (AppendOnly.complete _ _ _).bind fun text => ?_
  exact (AppendOnly.of _).bind fun reply => (AppendOnly.of _).bind fun placed => .of _

theorem refuseUnmatched_keepsContext (run : Run) (node : Step Item) (l : Lookup) (input : Item)
    (result : Entries Value) (message : String) :
    KeepsContext run node (refuseUnmatched run node l input result message) :=
  .bind (.appendOnly (.plant _)) fun _ => .refusal _ _ _ _ _

theorem acceptUnmatched_touchesContext (run : Run) (node : Step Item) (l : Lookup) (input : Item)
    (result : Entries Value) : TouchesContext run node (acceptUnmatched run node l input result) := by
  refine .bind (.failsOnData (.plant _)) fun _ => .bind (.phase _ _ _) fun _ => ?_
  refine .bind (.failsOnData (storeOutput_failsOnData run _ _)) fun _ =>
    .bind (.failsOnData (.plant _)) fun parts => ?_
  refine .bind (.failsOnData .store) fun s => .bind (.failsOnData (.newObject _)) fun _ => ?_
  exact TouchesContext.closed.pure _

theorem decideAsked_contextLast (run : Run) (node : Step Item) (config : Value) (l : Lookup) :
    ContextLast run node (decideAsked run node config l) := by
  refine .appendOnly .provider fun provider => .appendOnly (ask_appendOnly l) fun result => ?_
  refine .appendOnly (.plant _) fun input => ?_
  split
  · refine .appendOnly (.of _) fun message => ?_
    split
    · exact .keepsContext (refuseUnmatched_keepsContext run node l input result message)
    · exact .touchesContext (acceptUnmatched_touchesContext run node l input result)
  · rename_i matched _
    refine .touchesContext
      (.bind (.failsOnData (choose_failsOnData run config _ matched)) fun x => ?_)
    refine .bind (.failsOnData (.plant _)) fun _ => .bind (.failsOnData (.plant _)) fun _ => ?_
    refine .bind (.failsOnData (.newObject _)) fun found => .bind (.phase _ _ _) fun _ => ?_
    exact .bind (.failsOnData (.newObject _)) fun _ => TouchesContext.closed.pure _

theorem decided_contextLast (run : Run) (node : Step Item) (config : Value) (l : Lookup) :
    ContextLast run node
      (match l.candidates with
      | [] => decideNone l
      | [c] =>
        if l.settings.skipsSingle then decideSingle run node config l c
        else decideAsked run node config l
      | _ => decideAsked run node config l) := by
  split
  · exact .keepsContext (decideNone_keepsContext l)
  · split
    · exact .touchesContext (decideSingle_touchesContext run node config l _)
    · exact decideAsked_contextLast run node config l
  · exact decideAsked_contextLast run node config l

theorem aiDecision_contextLast (run : Run) (node : Step Item) :
    ContextLast run node (aiDecision run node) :=
  .appendOnly (.read _) fun config => .bind (lookUp_keepsContext run node config) fun l =>
    decided_contextLast run node config l

theorem askFields_keepsContext (run : Run) (node : Step Item) (mappings : List Value)
    (done : Filled) :
    KeepsContext run node (askFields run node mappings done) := by
  refine .bind (.appendOnly .provider) fun provider => ?_
  refine .bind (.appendOnly (entryValue_readOnly run _).appendOnly) fun subject => ?_
  refine .bind (.appendOnly (entryValue_readOnly run _).appendOnly) fun body =>
    .bind (.appendOnly (.of _)) fun question => ?_
  refine .bind (.appendOnly (.complete _ _ _)) fun text => .bind (.appendOnly (.of _)) fun reply => ?_
  extract_lets kept
  refine .bind (.appendOnly (.of _)) fun filled => .bind (.appendOnly (.of _)) fun _ => ?_
  refine .bind (.appendOnly (.of _)) fun _ => .bind (.appendOnly (.plant _)) fun input => ?_
  refine .bind (.appendOnly (.of _)) fun _ => .bind (.appendOnly (.plant _)) fun output => ?_
  exact .bind (.phase _ _ _) fun _ => KeepsContext.closed.pure _

theorem writeFields_failsOnData (run : Run) (fields : Filled) :
    FailsOnData (writeFields run fields) := by
  refine (FailsOnData.run' _).bind fun extracted => FailsOnData.closed.forM fun e _ => ?_
  exact (FailsOnData.plant _).bind fun x => (set_failsOnData run _ x).bind fun _ =>
    .edit (dataFaultsOnly_set _ _ _)

theorem noteFields_failsOnData (run : Run) (mappings : List Value) :
    FailsOnData (noteFields run mappings) := by
  refine FailsOnData.closed.forM fun m _ => ?_
  simp only
  split
  · exact noteName_failsOnData run _
  · exact FailsOnData.closed.pure _

/-- The first phase comes behind the literal fields and those with templates; the provider is asked
behind it. -/
theorem readMappings_in {C : {α : Type} → Work α → Prop} (run : Run) (node : Step Item)
    (mappings : List Value)
    (he : ∀ {α β : Type} {p : Work α} {f : α → Work β}, AppendOnly p → (∀ x, C (f x)) → C (p >>= f))
    (hp : ∀ {β : Type} {f : Unit → Work β} (name : String) (input output : Item),
      (∀ x, ContextLast run node (f x)) →
        C (run.logPhase node name "completed" input output >>= f)) :
    C (readMappings run node mappings) := by
  unfold readMappings
  refine he (.of _) fun done => he (scope_readOnly run).appendOnly fun scope =>
    he (.of _) fun done => ?_
  refine he (.plant _) fun input => he (.plant _) fun output => hp _ _ _ fun _ => ?_
  extract_lets rest
  have written (fields : Filled) : ContextLast run node (rest fields) := by
    refine .touchesContext (.bind (.failsOnData (writeFields_failsOnData run fields)) fun _ => ?_)
    refine .bind (.failsOnData (noteFields_failsOnData run _)) fun _ =>
      .bind (.failsOnData (.plant _)) fun _ => ?_
    exact TouchesContext.closed.pure _
  split
  · exact .appendOnly (AppendOnly.closed.pure _) written
  · exact .bind (askFields_keepsContext run node _ _) written

theorem readMappings_contextLast (run : Run) (node : Step Item) (mappings : List Value) :
    ContextLast run node (readMappings run node mappings) :=
  readMappings_in run node mappings .appendOnly fun _ _ _ => .bind (.phase _ _ _)

theorem readEmail_contextLast (run : Run) (node : Step Item) :
    ContextLast run node (readEmail run node) := by
  unfold readEmail
  refine .appendOnly (.read _) fun config => .appendOnly (.of _) fun ms => ?_
  simp only
  split
  · exact .appendOnly (.plant _) fun _ => .keepsContext (KeepsContext.closed.pure _)
  · exact readMappings_contextLast run node _

/-- The program of every kind of step is laid out like that. -/
theorem perform_contextLast {k : StepKind} (run : Run) {node : Step Item} (hk : node.kind? = some k) :
    ContextLast run node (k.perform run node) := by
  cases k with
  | apiCall => exact apiCall_contextLast run node
  | apiEndpoint => exact apiEndpoint_contextLast run node
  | conditionalCheck => exact conditionalCheck_contextLast run node
  | renameFile => exact renameFile_contextLast run node
  | sftpUpload => exact sftpUpload_contextLast run node
  | emailAction => exact emailAction_contextLast run node
  | multipartUpload => exact multipartUpload_contextLast run node
  | aiDecision => exact aiDecision_contextLast run node
  | imaging => exact imaging_contextLast run node hk
  | readEmail => exact readEmail_contextLast run node

end StepGraph.Steps
