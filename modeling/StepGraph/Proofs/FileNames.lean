import StepGraph.Proofs.Casting
import StepGraph.Proofs.Conditions
import StepGraph.Proofs.RemotePath
import StepGraph.Proofs.StoredMatch

/-!
The names that a run gives to its files. Whatever the values are that go into a name, its base is
safe for a file system, and the context gets a name with this base for each kind of file that is
switched on. Otherwise nothing is written: a template that leaves no name is refused, and so is a
value that cannot be put into text.
-/
namespace StepGraph

open Attempt Work

namespace FileName

open Text

def Legal (c : Char) : Prop :=
  0x20 ≤ c.toNat ∧ c ∉ ['<','>',':','"','/','\\','|','?','*']

/-- A name that can be given to a file: it is not empty, holds legal characters alone and does not
start with a blank. -/
structure Safe (name : String) : Prop where
  filled : name ≠ ""
  legal : ∀ c ∈ name.toList, Legal c
  start : ∀ c, name.toList.head? = some c → isBlank c = false

theorem isIllegal_eq_false {c : Char} : isIllegal c = false ↔ Legal c := by
  simp [isIllegal,Legal]

theorem legal_of_isDigit {c : Char} (h : c.isDigit = true) : Legal c := by
  obtain ⟨hlow,hhigh⟩ := toNat_of_isDigit h
  refine ⟨by omega,fun hc => ?_⟩
  have hmarks : ∀ d ∈ ['<','>',':','"','/','\\','|','?','*'], d.isDigit = false :=
    forall_mem_of_all (by decide)
  rw [hmarks c hc] at h
  cases h

/-- A cleaned name starts with no blank: the blanks at its end went first. -/
theorem head_sanitized {c : Char} {s : String} (h : (sanitized s).toList.head? = some c) :
    isBlank c = false := by
  rw [sanitized,toList_trim] at h
  exact head_dropBlanks h

/-- Without a line break at the end, an extension is dropped at the very end. -/
theorem withoutExtension_front {s : String} (h : '\n' ∉ s.toList) :
    (withoutExtension s).toList <+: s.toList := by
  unfold withoutExtension
  dsimp only
  split
  · rw [String.toList_ofList]
    exact List.take_prefix _ _
  · split
    · rename_i hline
      obtain ⟨front,hfront⟩ := List.isSuffixOf_iff_suffix.1 hline
      rw [← hfront] at h
      simp at h
    · exact List.prefix_rfl

theorem Safe.of_front {name whole : String} (hfilled : name ≠ "")
    (hname : name.toList <+: whole.toList) (hlegal : ∀ c ∈ whole.toList, Legal c)
    (hstart : ∀ c, whole.toList.head? = some c → isBlank c = false) : Safe name where
  filled := hfilled
  legal c hc := hlegal c (hname.subset hc)
  start c hc := by
    obtain ⟨rest,hrest⟩ := hname
    apply hstart
    rw [← hrest,List.head?_append,hc]
    rfl

theorem Safe.append {name tail : String} (h : Safe name) (htail : ∀ c ∈ tail.toList, Legal c) :
    Safe (name ++ tail) where
  filled := by simp [h.filled]
  legal c hc := by
    rw [String.toList_append,List.mem_append] at hc
    exact hc.elim (h.legal c) (htail c)
  start c hc := by
    have hne : name.toList ≠ [] := by simpa using h.filled
    rw [String.toList_append,List.head?_append_of_ne_nil _ hne] at hc
    exact h.start c hc

theorem safe_base {s : String} (h : withoutExtension (sanitized s) ≠ "") :
    Safe (withoutExtension (sanitized s)) := by
  have hlegal : ∀ c ∈ (sanitized s).toList, Legal c :=
    fun c hc => isIllegal_eq_false.1 (mem_sanitized hc)
  have hline : '\n' ∉ (sanitized s).toList := fun hc => absurd (mem_sanitized hc) (by decide)
  exact .of_front h (withoutExtension_front hline) hlegal fun _ => head_sanitized

end FileName

namespace Scope

/-- Why a value cannot be put into text: a container holds itself, or a whole number has too many
digits. -/
def Untold (f : Fault) : Prop := f = circular ∨ f = .invalid Json.tooManyDigitsToWrite

theorem find_ofItem {s : Store} {root : Item} {path : String} {f : Fault}
    (h : (ofItem s root).find path = .error f) : f = .misuse .tooDeep := by
  unfold ofItem of Store.access Store.read at h
  dsimp only at h
  split at h
  · split at h
    · cases h
    · exact (Except.error.inj h).symm
  · cases h

theorem find_written {s : Store} {root : Item} {path : String} {f : Fault}
    (h : (ofItem s root).written.find path = .error f) : f = circular := by
  unfold written at h
  cases hfind : (ofItem s root).find path with
  | ok v =>
    simp only [hfind] at h
    cases h
  | error f' =>
    obtain rfl := find_ofItem hfind
    simp only [hfind] at h
    exact (Except.error.inj h).symm

theorem find_fileName_written {s : Store} {context response : Item} {path : String} {f : Fault}
    (h : (FileName.scope (ofItem s context).written (ofItem s response).written).find path =
      .error f) : f = circular := by
  unfold FileName.scope at h
  dsimp only at h
  split at h
  · exact find_written h
  · cases hfind : (ofItem s context).written.find path with
    | error f' =>
      rw [hfind] at h
      cases h
      exact find_written hfind
    | ok v =>
      rw [hfind] at h
      change (if v.isNull then (ofItem s response).written.find path else .ok v) = _ at h
      split at h
      · exact find_written h
      · cases h

theorem textAt_error {scope : Scope} {path : String} {f : Fault}
    (h : scope.textAt path = .error f) :
    scope.find path = .error f ∨ f = .invalid Json.tooManyDigitsToWrite := by
  unfold textAt at h
  cases hfind : scope.find path with
  | error f' =>
    rw [hfind] at h
    cases h
    exact .inl rfl
  | ok v =>
    rw [hfind] at h
    change (if v.isNull then pure none else some <$> v.asText) = _ at h
    split at h
    · cases h
    · exact .inr (Value.asText_error (eq_error_of_map h))

end Scope

namespace Steps

open Template

variable {run : Run} {node : Step Item} {config : Value} {w : World}

def nameScope (run : Run) (w : World) : Scope :=
  FileName.scope (Scope.ofItem w.store run.context).written (Scope.ofItem w.store run.last).written

theorem exec_resolveName (run : Run) (t : String) (w : World) :
    (resolveName run (.text t)).exec w = (resolveText (nameScope run w) t id none,w) := by
  rw [nameScope,← resolve_fileName_text]
  rfl

def nameSettings : List String := ["filenameTemplate","fallbackFilename"]

/-- A value that one of the templates names cannot be put into text. -/
def UntoldName (run : Run) (config : Value) (w : World) (f : Fault) : Prop :=
  Scope.Untold f ∧ ∃ setting ∈ nameSettings,
    ∃ path ∈ (parse Dialect.step (settingText (config.field setting))).paths,
      (nameScope run w).textAt path = .error f

def noName (config : Value) : Fault :=
  .configuration ("Filename template '" ++ settingText (config.field "filenameTemplate") ++
    "' resolved to an empty filename and no fallback is configured")

theorem legal_stamp (t : Time.Moment) : ∀ c ∈ ("_" ++ stamp t).toList, FileName.Legal c := by
  have hmark : ∀ c ∈ "_".toList, FileName.Legal c := by
    intro c hc
    rw [List.mem_singleton.1 (show c ∈ ['_'] from hc)]
    exact ⟨by decide,by decide⟩
  have hdigits (width n : Nat) : ∀ c ∈ (Time.padded width n).toList, FileName.Legal c :=
    fun c hc => FileName.legal_of_isDigit (Value.Cast.isDigit_padded hc)
  simp only [stamp,String.toList_append,List.forall_mem_append]
  exact ⟨hmark,⟨⟨⟨⟨⟨hdigits _ _,hdigits _ _⟩,hdigits _ _⟩,hmark⟩,hdigits _ _⟩,hdigits _ _⟩,
    hdigits _ _⟩

/-- The ways in which a base name comes about, or does not. -/
inductive BaseNamed (run : Run) (config : Value) (w : World) : Except Fault (String × Bool) → Prop
  | safe {base : String} (used : Bool) (h : FileName.Safe base) :
      BaseNamed run config w (.ok (base,used))
  | empty : BaseNamed run config w (.error (noName config))
  | untold {f : Fault} (h : UntoldName run config w f) : BaseNamed run config w (.error f)

theorem TextOrNone.orEmpty {v : Value} (h : TextOrNone v) :
    v.orElse (.text "") = .text (settingText v) := by
  rw [h.orElse]
  split
  · rw [‹settingText v = ""›]
  · rfl

theorem TextOrNone.text_of_truthy {v : Value} (h : TextOrNone v) (ht : v.truthy = true) :
    v = .text (settingText v) := by
  rcases h with rfl | ⟨t,rfl⟩
  · cases ht
  · rfl

theorem untoldName_of_resolve {setting : String} {f : Fault} (hs : setting ∈ nameSettings)
    (h : resolveText (nameScope run w) (settingText (config.field setting)) id none = .error f) :
    UntoldName run config w f := by
  obtain ⟨path,hpath,hf⟩ := resolveText_error h
  refine ⟨?_,setting,hs,path,hpath,hf⟩
  exact (Scope.textAt_error hf).imp_left Scope.find_fileName_written

def based (config : Value) (used : Bool) (resolved : String) : Work (String × Bool) := do
  let base := FileName.withoutExtension (FileName.sanitized resolved)
  if base.isEmpty then throw (noName config)
  if (config.field "appendTimestamp").truthy then
    return (base ++ "_" ++ stamp (← Work.moment),used)
  else return (base,used)

theorem based_named (used : Bool) (resolved : String) :
    BaseNamed run config w ((based config used resolved).exec w).1 := by
  unfold based
  extract_lets base rest
  by_cases hempty : base.isEmpty = true
  · rw [if_pos hempty,exec_bind_error (exec_throw _ _)]
    exact .empty
  · rw [if_neg hempty]
    have hsafe : FileName.Safe base := FileName.safe_base (by simpa using hempty)
    by_cases hstamp : (config.field "appendTimestamp").truthy = true
    · change BaseNamed run config w ((if _ then _ else _ : Work _).exec w).1
      rw [if_pos hstamp]
      have := hsafe.append (legal_stamp ((Time.Moment.ofEpoch? w.now).getD default))
      rw [← String.append_assoc] at this
      exact .safe used this
    · change BaseNamed run config w ((if _ then _ else _ : Work _).exec w).1
      rw [if_neg hstamp]
      exact .safe used hsafe

theorem resolved_named {setting : String} (hs : setting ∈ nameSettings)
    {f : String → Work (String × Bool)}
    (hf : ∀ resolved, BaseNamed run config w ((f resolved).exec w).1) :
    BaseNamed run config w
      ((resolveName run (.text (settingText (config.field setting))) >>= f).exec w).1 := by
  have hexec := exec_resolveName run (settingText (config.field setting)) w
  cases hr : resolveText (nameScope run w) (settingText (config.field setting)) id none with
  | error e =>
    rw [hr] at hexec
    rw [exec_bind_error hexec]
    exact .untold (untoldName_of_resolve hs hr)
  | ok resolved =>
    rw [hr] at hexec
    rw [exec_bind_ok hexec]
    exact hf resolved

theorem baseName_named (hwords : Textual config nameSettings) :
    BaseNamed run config w ((baseName run config).exec w).1 := by
  have htemplate := (hwords "filenameTemplate" (by simp [nameSettings])).orEmpty
  have hfallback := hwords "fallbackFilename" (by simp [nameSettings])
  unfold baseName
  rw [htemplate]
  refine resolved_named (by simp [nameSettings]) fun first => ?_
  extract_lets fallback useFallback finish
  have hfinish (resolved : String) : BaseNamed run config w ((finish resolved).exec w).1 :=
    based_named useFallback resolved
  by_cases huse : useFallback = true
  · rw [if_pos huse]
    have htext : fallback = .text (settingText (config.field "fallbackFilename")) :=
      hfallback.text_of_truthy (Bool.and_eq_true_iff.1 huse).2
    rw [htext]
    exact resolved_named (by simp [nameSettings]) hfinish
  · rw [if_neg huse,pure_bind]
    exact hfinish first

theorem exec_forM_set (run : Run) (later : Entries Item) (w : World) :
    (later.forM fun e => run.set e.1 e.2).exec w =
      (.ok ⟨⟩,{ w with store := w.store.putFields run.context later }) := by
  induction later generalizing w with
  | nil => rfl
  | cons e rest ih =>
    have hset : (run.set e.1 e.2).exec w =
        (.ok (),{ w with store := w.store.putField run.context e.1 e.2 }) := rfl
    exact (exec_bind_ok hset _).trans (ih _)

def nameEntries (config : Value) (dataKind : FileKind) (base : String) : Entries Item :=
  let primary : Item := .text (fileName base (primaryKind config dataKind))
  ((FileKind.all.filter (isRenamed config)).map fun k => (renamedKey k,.text (fileName base k))) ++
    [("renamedFilename",primary),("actualFilename",primary)]

/-- The kind of file is to be named: the scanned document unless that is switched off, data files
where it is switched on. -/
def Renames (config : Value) (kind : FileKind) : Prop :=
  if kind = .pdf then config.field "renamePdf" ≠ .bool false
  else (config.field ("rename" ++ kind.extension.capitalize)).truthy = true

/-- All names have one base. Each kind of file that is switched on has its name in the context; under
two further entries stands the name of the main file, the data file if any kind of data is switched
on, and nothing else is assigned. -/
structure Renamed (run : Run) (config : Value) (base : String) (s s' : Store) : Prop where
  kind : ∀ k, Renames config k →
    s'.field run.context (newNameKey k) = .text (base ++ "." ++ k.extension)
  data : (∃ k, k ≠ .pdf ∧ Renames config k) → ∀ key ∈ ["renamedFilename","actualFilename"],
    s'.field run.context key = .text (base ++ "." ++ run.dataKind.extension)
  document : (∀ k, Renames config k → k = .pdf) → ∀ key ∈ ["renamedFilename","actualFilename"],
    s'.field run.context key = .text (base ++ ".pdf")
  others : ∀ key, key ∉ ["renamedFilename","actualFilename"] →
    (∀ k, Renames config k → key ≠ newNameKey k) →
    Entries.get? (s'.entries run.context) key = Entries.get? (s.entries run.context) key
  apart : ∀ i, s.isContainer i = true → i ≠ run.context → s'.layer i = s.layer i

theorem isRenamed_iff {k : FileKind} : isRenamed config k = true ↔ Renames config k := by
  unfold Renames
  cases k with
  | pdf =>
    rw [if_pos rfl]
    unfold isRenamed
    dsimp only
    split <;> simp_all
  | csv | json | xml => exact Iff.rfl

theorem primaryKind_data {dataKind : FileKind} (h : ∃ k, k ≠ .pdf ∧ Renames config k) :
    primaryKind config dataKind = dataKind := by
  obtain ⟨k,hk,hrenames⟩ := h
  have hany : [FileKind.csv,.json,.xml].any (isRenamed config) = true :=
    List.any_eq_true.2 ⟨k,by cases k <;> simp_all,isRenamed_iff.2 hrenames⟩
  exact if_pos hany

theorem primaryKind_document {dataKind : FileKind} (h : ∀ k, Renames config k → k = .pdf) :
    primaryKind config dataKind = .pdf := by
  have hnone : ¬[FileKind.csv,.json,.xml].any (isRenamed config) = true := by
    intro hany
    obtain ⟨k,hk,hrenamed⟩ := List.any_eq_true.1 hany
    obtain rfl := h k (isRenamed_iff.1 hrenamed)
    simp at hk
  exact if_neg hnone

theorem keys_nameEntries (config : Value) (dataKind : FileKind) (base : String) :
    (nameEntries config dataKind base).keys =
      (FileKind.all.filter (isRenamed config)).map renamedKey ++
        ["renamedFilename","actualFilename"] := by
  simp [nameEntries,Entries.keys,Function.comp_def]

theorem nodup_nameEntries (config : Value) (dataKind : FileKind) (base : String) :
    (nameEntries config dataKind base).keys.Nodup := by
  rw [keys_nameEntries]
  have hall : (FileKind.all.map renamedKey ++ ["renamedFilename","actualFilename"]).Nodup := by
    decide
  exact hall.sublist ((List.filter_sublist.map renamedKey).append_right _)

theorem renamed_of_grows {base : String} {s s' : Store} (hcontext : s.isObject run.context = true)
    (hg : (s.putFields run.context (nameEntries config run.dataKind base)).Grows s') :
    Renamed run config base s s' := by
  obtain ⟨es,hl⟩ := Store.layer_of_isObject hcontext
  obtain ⟨hmerged,hother⟩ := Store.layer_putFields hl (nameEntries config run.dataKind base)
  have hkept := (hg.layer (Store.isObject_of_layer hmerged)).trans hmerged
  have hd := nodup_nameEntries config run.dataKind base
  -- the names of the entries are distinct, so each assigned one is found under its own
  have named {key : String} {x : Item} (h : (key,x) ∈ nameEntries config run.dataKind base) :
      s'.field run.context key = x := by
    rw [Store.field_of_layer hkept,Entries.get?_merge,Entries.last?_eq hd,Entries.get?_of_mem hd h]
    rfl
  have hmain : ∀ key ∈ ["renamedFilename","actualFilename"],
      s'.field run.context key = .text (fileName base (primaryKind config run.dataKind)) :=
    fun key hkey => named (List.mem_append_right _ (by simpa using hkey))
  constructor
  case kind =>
    intro k hk
    rw [← renamedKey_eq]
    refine named (List.mem_append_left _ (List.mem_map_of_mem (List.mem_filter.2 ⟨?_,?_⟩)))
    · cases k <;> decide
    · exact isRenamed_iff.2 hk
  case data =>
    intro h key hkey
    rw [hmain key hkey,primaryKind_data h,fileName]
  case document =>
    intro h key hkey
    rw [hmain key hkey,primaryKind_document h,fileName,String.append_assoc]
    rfl
  case others =>
    intro key hmain hkind
    rw [Store.entries,Store.entries,hkept,hl]
    refine Entries.get?_merge_of_not_mem ?_ es
    rw [keys_nameEntries,List.mem_append,not_or]
    refine ⟨fun hkey => ?_,hmain⟩
    obtain ⟨k,hk,rfl⟩ := List.mem_map.1 hkey
    exact hkind k (isRenamed_iff.1 (List.mem_filter.1 hk).2) (renamedKey_eq k)
  case apart =>
    intro i hi hne
    have hlayer := hother i hne
    exact (hg.layer_of_isContainer (by rw [Store.isContainer,hlayer]; exact hi)).trans hlayer

/-- Naming the files of a run ends in one of three ways. The template leaves no name, or a value that
it names cannot be put into text: then nothing is changed. Otherwise the context gets the names of
exactly the kinds of file that are switched on, and of the main file, all with one safe base. -/
theorem renameFile_names (hconfig : w.store.read node.config = .ok config)
    (hwords : Textual config nameSettings) (hcontext : w.store.isObject run.context = true) :
    (renameFile run node).exec w = (.error (noName config),w) ∨
    (∃ f, UntoldName run config w f ∧ (renameFile run node).exec w = (.error f,w)) ∨
    ∃ o s base, (renameFile run node).exec w = (.ok o,{ w with store := s }) ∧
      FileName.Safe base ∧ Renamed run config base w.store s := by
  unfold renameFile
  rw [exec_bind_ok (exec_read hconfig)]
  have hnamed : BaseNamed run config w ((baseName run config).exec w).1 := baseName_named hwords
  have hexec := (baseName_readOnly run config).exec w
  generalize ((baseName run config).exec w).1 = result at hnamed hexec
  cases hnamed with
  | empty => exact .inl (exec_bind_error hexec _)
  | untold hf => exact .inr (.inl ⟨_,hf,exec_bind_error hexec _⟩)
  | @safe base used hsafe =>
    have hset := exec_forM_set run (nameEntries config run.dataKind base) w
    rw [exec_bind_ok hexec]
    refine .inr (.inr ⟨_,_,base,exec_bind_ok hset _,hsafe,?_⟩)
    exact renamed_of_grows hcontext (Store.alloc_grows _ _)

def namingStep : Step Item := { id := "r", type := "rename_file", config := .cell 1 }

def namingConfig : Value :=
  .object [("filenameTemplate",.text "\x7b\x7bid\x7d\x7d"),("renameCsv",.bool true)]

def naming : World where
  store := ⟨#[.object [("id",.text " a/b.PDF")],
    .object [("filenameTemplate",.text "\x7b\x7bid\x7d\x7d"),("renameCsv",.bool true)]]⟩

/-- The scanned document and the data file are named after what is left. -/
theorem renameFile_names_cleaned :
    ∃ o s, (renameFile { context := .cell 0 } namingStep).exec naming =
        (.ok o,{ naming with store := s }) ∧
      FileName.Safe "ab" ∧ Renamed { context := .cell 0 } namingConfig "ab" naming.store s ∧
      s.field (.cell 0) "renamedPdfFilename" = .text "ab.pdf" ∧
      s.field (.cell 0) "renamedCsvFilename" = .text "ab.csv" ∧
      s.field (.cell 0) "actualFilename" = .text "ab.json" := by
  have hok : ((renameFile { context := .cell 0 } namingStep).exec naming).1.isOk = true := by
    decide +kernel
  have hpdf : (((renameFile { context := .cell 0 } namingStep).exec naming).2.store.read?
      (((renameFile { context := .cell 0 } namingStep).exec naming).2.store.field (.cell 0)
        "renamedPdfFilename")).bind Value.text? = some "ab.pdf" := by decide +kernel
  have hwords : Textual namingConfig nameSettings := by
    simp only [Textual,nameSettings,List.forall_mem_cons,List.not_mem_nil,false_imp_iff,
      implies_true,and_true]
    exact ⟨.inr ⟨_,rfl⟩,.inl rfl⟩
  rcases @renameFile_names { context := .cell 0 } namingStep namingConfig naming rfl hwords rfl with
    h | ⟨f,-,h⟩ | ⟨o,s,base,h,hsafe,hnames⟩
  · rw [h] at hok
    cases hok
  · rw [h] at hok
    cases hok
  · rw [h] at hpdf
    have hdocument : Renames namingConfig .pdf := isRenamed_iff.1 (by decide)
    have hdata : Renames namingConfig .csv := isRenamed_iff.1 (by decide)
    have hname : s.field (.cell 0) (newNameKey .pdf) = .text (base ++ "." ++ "pdf") :=
      hnames.kind .pdf hdocument
    have hkey : newNameKey .pdf = "renamedPdfFilename" := (renamedKey_eq .pdf).symm
    dsimp only at hpdf
    rw [← hkey,hname] at hpdf
    have hbase : base.toList ++ ".pdf".toList = "ab".toList ++ ".pdf".toList := by
      have htext : base ++ "." ++ "pdf" = "ab.pdf" := Option.some.inj hpdf
      simpa using congrArg String.toList htext
    obtain rfl : base = "ab" := String.toList_inj.1 (List.append_cancel_right hbase)
    have hcsv := hnames.kind .csv hdata
    rw [← renamedKey_eq] at hcsv
    exact ⟨o,s,h,hsafe,hnames,hkey ▸ hname,hcsv,hnames.data ⟨.csv,by decide,hdata⟩ _ (by simp)⟩

end Steps

end StepGraph
