import StepGraph.Proofs.Choice
import StepGraph.Proofs.Dialects
import StepGraph.Proofs.Sending

/-!
Where an upload puts its file. The path is made of the directory and the name of the file, and it
lies in the directory exactly if the name has no slash and the directory does not end in several.
Names that are cleaned have no slash; those that the context holds are taken over as they are.
-/
namespace StepGraph

open Attempt

namespace FileName

open Text

theorem not_mem_dropBlanks {c : Char} {cs : List Char} (h : c ∉ cs) : c ∉ dropBlanks cs :=
  fun hc => h ((List.dropWhile_sublist _).mem hc)

theorem mem_sanitized {c : Char} {s : String} (h : c ∈ (sanitized s).toList) :
    isIllegal c = false := by
  have hkept : c ∈ s.toList.filter (!isIllegal ·) := by
    rw [sanitized,toList_trim,String.toList_ofList] at h
    by_contra hn
    refine not_mem_dropBlanks (fun h => not_mem_dropBlanks (fun h => hn ?_) (List.mem_reverse.1 h)) h
    exact List.mem_reverse.1 h
  simpa using (List.mem_filter.1 hkept).2

theorem slash_not_mem_sanitized (s : String) : '/' ∉ (sanitized s).toList :=
  fun h => absurd (mem_sanitized h) (by decide)

theorem slash_mem_dropEnding {cs : List Char} : '/' ∈ dropEnding cs ↔ '/' ∈ cs := by
  have hfold : Completion.foldTag '/' = '/' := by decide
  have hplain : ∀ e ∈ endings, '/' ∉ e := by decide
  refine ⟨fun h => (List.take_sublist _ _).mem h,fun h => ?_⟩
  rw [← List.take_append_drop (cs.length - endingLength cs) cs,List.mem_append] at h
  refine h.resolve_right fun hdropped => ?_
  unfold endingLength at hdropped
  cases hf : endings.find? fun e => e.isSuffixOf (cs.map Completion.foldTag) with
  | none => simp [hf] at hdropped
  | some e =>
    have hsuffix : e <:+ cs.map Completion.foldTag :=
      List.isSuffixOf_iff_suffix.1 (by simpa using List.find?_some hf)
    have he : e = (cs.drop (cs.length - e.length)).map Completion.foldTag := by
      rw [List.map_drop]
      simpa using List.suffix_iff_eq_drop.1 hsuffix
    simp only [hf,Option.map_some,Option.getD_some] at hdropped
    refine hplain e (List.mem_of_find?_eq_some hf) ?_
    rw [he,← hfold]
    exact List.mem_map_of_mem hdropped

theorem slash_mem_withoutExtension {s : String} :
    '/' ∈ (withoutExtension s).toList ↔ '/' ∈ s.toList := by
  unfold withoutExtension
  dsimp only
  split
  · rw [String.toList_ofList,slash_mem_dropEnding]
  · split
    · rename_i hline
      obtain ⟨front,hfront⟩ := List.isSuffixOf_iff_suffix.1 hline
      rw [String.toList_ofList,List.mem_append,slash_mem_dropEnding,← hfront]
      simp
    · rfl

end FileName

namespace Steps

theorem slash_mem_fileName {base : String} {kind : FileKind} :
    '/' ∈ (fileName base kind).toList ↔ '/' ∈ base.toList := by
  have hkind : '/' ∉ kind.extension.toList := by cases kind <;> decide
  simp [fileName,hkind]

end Steps

namespace Text

theorem toList_stripRight (c : Char) (s : String) :
    (stripRight c s).toList = (s.toList.reverse.dropWhile (· == c)).reverse := String.toList_ofList

theorem stripRight_append (c : Char) (s : String) :
    ∃ k, s.toList = (stripRight c s).toList ++ List.replicate k c := by
  refine ⟨(s.toList.reverse.takeWhile (· == c)).length,?_⟩
  have hall : s.toList.reverse.takeWhile (· == c) =
      List.replicate (s.toList.reverse.takeWhile (· == c)).length c := by
    refine List.eq_replicate_iff.2 ⟨rfl,fun d hd => ?_⟩
    simpa using List.mem_takeWhile_imp hd
  have hsplit := congrArg List.reverse
    (List.takeWhile_append_dropWhile (p := (· == c)) (l := s.toList.reverse))
  rw [List.reverse_append,List.reverse_reverse,hall,List.reverse_replicate] at hsplit
  rw [toList_stripRight]
  exact hsplit.symm

theorem stripRight_ne (c : Char) (s : String) (front : List Char) :
    (stripRight c s).toList ≠ front ++ [c] := by
  rw [toList_stripRight]
  intro h
  have hhead := congrArg List.reverse h
  rw [List.reverse_reverse,List.reverse_append] at hhead
  have hc := List.head?_dropWhile_not (· == c) s.toList.reverse
  rw [hhead] at hc
  simp at hc

theorem endsWith_row {c : Char} {s : String} {k : Nat}
    (hs : s.toList = (stripRight c s).toList ++ List.replicate k c) (mark : String) {n : Nat}
    (hmark : mark.toList = List.replicate n c) : endsWith s mark = true ↔ n ≤ k := by
  unfold endsWith
  rw [List.isSuffixOf_iff_suffix,hmark,hs]
  constructor
  · rintro ⟨rest,hrest⟩
    by_contra hlt
    obtain ⟨m,rfl⟩ := Nat.exists_eq_add_of_lt (Nat.lt_of_not_le hlt)
    rw [show k + m + 1 = m + 1 + k by omega,List.replicate_add,← List.append_assoc,
      List.append_cancel_right_eq,List.replicate_succ',← List.append_assoc] at hrest
    exact stripRight_ne c s _ hrest.symm
  · intro hle
    obtain ⟨m,rfl⟩ := Nat.exists_eq_add_of_le' hle
    rw [List.replicate_add,← List.append_assoc]
    exact List.suffix_append _ _

end Text

namespace Sftp

open Text

variable {directory path : String}

/-- The directory that an upload goes to: the root instead of an empty one, and no blanks around
it. -/
def settled (directory : String) : String :=
  if trim directory = "" then "/" else trim directory

theorem rootIfEmpty_trim (directory : String) :
    rootIfEmpty (trim (rootIfEmpty directory)) = settled directory := by
  have hroot (s : String) : rootIfEmpty s = if s = "" then "/" else s := by
    simp only [rootIfEmpty,String.isEmpty_iff]
  rw [hroot,settled,hroot directory]
  split
  · rename_i hempty
    rw [hempty]
    decide +kernel
  · rfl

/-- The path is that of a file in the directory: one slash between them, however many the directory
ends in, and none in the name of the file. -/
def Lies (directory path : String) : Prop :=
  ∃ file : List Char, '/' ∉ file ∧
    path.toList = (stripRight '/' (settled directory)).toList ++ '/' :: file

/-- Behind the name of the directory stand some slashes and the name. -/
theorem lies_iff (name : String) {k : Nat} (hpath : path.toList =
    (stripRight '/' (settled directory)).toList ++ List.replicate (k + 1) '/' ++ name.toList) :
    Lies directory path ↔ '/' ∉ name.toList ∧ k = 0 := by
  rw [List.append_assoc,List.replicate_succ,List.cons_append] at hpath
  unfold Lies
  simp only [hpath,List.append_cancel_left_eq,List.cons_inj_right]
  constructor
  · rintro ⟨file,hfile,rfl⟩
    rw [List.mem_append,not_or] at hfile
    refine ⟨hfile.2,?_⟩
    by_contra hk
    exact hfile.1 (List.mem_replicate.2 ⟨hk,rfl⟩)
  · rintro ⟨hname,rfl⟩
    exact ⟨name.toList,hname,rfl⟩

theorem remotePath_lies (directory name : String) : Lies directory (remotePath directory name) ↔
    if startsWith name "/" then Lies directory name
    else '/' ∉ name.toList ∧ endsWith (settled directory) "//" = false := by
  obtain ⟨k,hk⟩ := stripRight_append '/' (settled directory)
  have hone := endsWith_row hk "/" (n := 1) rfl
  have htwo := endsWith_row hk "//" (n := 2) rfl
  rw [← Bool.not_eq_true,htwo]
  rw [remotePath,rootIfEmpty_trim]
  split
  · rfl
  split
  · rename_i hends
    obtain ⟨m,rfl⟩ := Nat.exists_eq_add_of_le' (hone.1 hends)
    rw [lies_iff name (k := m) (by rw [String.toList_append,hk])]
    exact and_congr_right fun _ => by omega
  · rename_i hends
    obtain rfl : k = 0 := by
      rw [hone] at hends
      omega
    rw [lies_iff name (k := 0) (by rw [String.toList_append,String.toList_append,hk]; simp)]
    exact and_congr_right fun _ => by omega

end Sftp

def Call.put? : Call → Option (String × ByteArray)
  | .sftp (.put path data) => some (path,data)
  | _ => none

namespace World

def puts (w : World) : List (String × ByteArray) := w.calls.filterMap Call.put?

def SamePuts (w w' : World) : Prop := w'.puts = w.puts

instance : IsPreorder World SamePuts where
  refl _ := rfl
  trans _ _ _ h h' := h'.trans h

end World

namespace Work

variable {α β : Type} {w w' : World}

abbrev WritesNoFile (p : Work α) : Prop := Keeps World.SamePuts p

theorem puts_note (c : Call) (w : World) :
    ((Work.note c).exec w).2.puts = w.puts ++ c.put?.toList := by
  change (w.calls ++ [c]).filterMap Call.put? = _
  rw [List.filterMap_append]
  cases h : c.put? <;> simp [h,World.puts]

theorem writesNoFile_note {c : Call} (h : c.put? = none) : WritesNoFile (Work.note c) := by
  intro w
  unfold World.SamePuts
  rw [puts_note,h,Option.toList_none,List.append_nil]

theorem writesNoFile_edit (e : Edit α) : WritesNoFile (Work.edit e) := fun _ => rfl

theorem samePuts_of_edit {e : Edit α} {r : Except Fault α} (h : (Work.edit e).exec w = (r,w')) :
    World.SamePuts w w' := by
  have hw := writesNoFile_edit e w
  rwa [h] at hw

theorem exec_of_attempt {p : Work α} {r : Except Fault α}
    (h : (Work.attempt p).exec w = (.ok r,w')) : p.exec w = (r,w') := by
  have ha : (Work.attempt p).exec w = (.ok (p.exec w).1,(p.exec w).2) := rfl
  rw [ha] at h
  obtain ⟨hr,hw⟩ := Prod.mk.inj h
  exact Prod.ext (Except.ok.inj hr) hw

end Work

open Work

namespace Sftp

variable {w w' : World}

theorem ensureDirectory_writesNoFile (path : String) : WritesNoFile (ensureDirectory path) := by
  intro w
  unfold ensureDirectory
  rw [exec_bind_ok (exec_get w)]
  dsimp only
  split
  · rfl
  · rw [exec_bind_ok (exec_set _ _)]
    exact writesNoFile_note rfl _

theorem transfer_ok {directory path : String} {data : ByteArray}
    (h : (transfer directory path data).exec w = (.ok (),w')) :
    w'.puts = w.puts ++ [(path,data)] := by
  have hmade : WritesNoFile ((levels directory).forM ensureDirectory) :=
    Keeps.closed.forM fun p _ => ensureDirectory_writesNoFile p
  obtain ⟨⟨⟩,w₁,hw₁,h⟩ := hmade.ahead h
  rw [exec_bind_ok (exec_get w₁)] at h
  split at h
  · cases h
  · have hput := puts_note (.sftp (.put path data)) w₁
    rw [← noteSftp,h] at hput
    exact hput.trans (congrArg (· ++ _) hw₁)

theorem upload_ok {s : SftpSettings} {directory path : String} {filename : Value}
    {data : ByteArray} (h : (upload s directory filename data).exec w = (.ok path,w')) :
    ∃ name, filename = .text name ∧ path = remotePath directory name ∧
      w'.puts = w.puts ++ [(path,data)] := by
  unfold upload at h
  extract_lets key rest at h
  obtain ⟨name,rfl,hrest⟩ : ∃ name, filename = .text name ∧
      (rest name).exec w = (.ok path,w') := by
    split at h
    · exact ⟨_,rfl,h⟩
    · cases h
  clear h
  obtain ⟨⟨⟩,w₁,hw₁,h⟩ := (writesNoFile_note rfl).ahead hrest
  obtain ⟨⟨⟩,w₂,hw₂,h⟩ := (writesNoFile_note rfl).further hw₁ h
  rw [exec_bind_ok (exec_get w₂)] at h
  split at h
  · obtain ⟨⟨⟩,w₃,-,h⟩ := exec_bind_eq_ok h
    cases h
  · obtain ⟨done,w₃,hdone,h⟩ := exec_bind_eq_ok h
    obtain ⟨⟨⟩,w₄,hw₄,h⟩ := (writesNoFile_note rfl).ahead h
    obtain ⟨⟨⟩,w₅,hw₅,h⟩ := (writesNoFile_note rfl).further hw₄ h
    obtain ⟨⟨⟩,w₆,hok,h⟩ := exec_bind_eq_ok h
    cases h
    obtain ⟨rfl,rfl⟩ := Prod.mk.inj hok
    have hput := transfer_ok (exec_of_attempt hdone)
    refine ⟨name,rfl,rfl,?_⟩
    rw [← hw₂,← hput]
    exact hw₅

end Sftp

namespace Steps

variable {run : Run} {node : Step Item} {config : Value} {w w' : World} {o : Outcome}

def ContextHas (run : Run) (w : World) (key : String) (v : Value) : Prop :=
  w.store.read (Context.get w.store run.context key) = .ok v

def Unset (run : Run) (w : World) (key : String) : Prop :=
  ∃ v, ContextHas run w key v ∧ v.truthy = false

def newNameKey (kind : FileKind) : String := "renamed" ++ kind.extension.capitalize ++ "Filename"

/-- The kind of file that is uploaded: the configured one, or else that of the run's data. -/
def Uploads (run : Run) (config : Value) (kind : FileKind) : Prop :=
  ∃ type, ((config.field "uploadType").orElse (.text run.dataKind.extension)).display = .ok type ∧
    Text.lower type = kind.extension

/-- The remote directory: the override with its placeholders resolved, or else the one that the
profile has for the kind of file, which is the root where the profile has none. -/
def Directs (run : Run) (config : Value) (p : SftpSettings) (kind : FileKind) (w : World)
    (directory : String) : Prop :=
  if (config.field "sftpPathOverride").truthy then
    FileName.resolve (Scope.ofItem w.store run.context).written
      (Scope.ofItem w.store run.last).written (config.field "sftpPathOverride") = .ok directory
  else directory = if (p.directory kind).getD "" = "" then "/" else (p.directory kind).getD ""

/-- The step takes the name from the last response, which has a value for it. -/
structure Responds (run : Run) (config : Value) (w : World) (v : Value) : Prop where
  asked : (config.field "useApiResponseForFilename").truthy = true
  path : (config.field "filenameSourcePath").truthy = true
  value : w.store.read (w.store.reached run.last (config.field "filenameSourcePath")) = .ok v
  filled : v ≠ .null ∧ v ≠ .text ""

/-- The name that the context holds for a file: the new one, or else that of the scanned
document. -/
def HoldsName (run : Run) (kind : FileKind) (w : World) (held : String) : Prop :=
  ContextHas run w (newNameKey kind) (.text held) ∨
    Unset run w (newNameKey kind) ∧ ContextHas run w "pdfFilename" (.text held)

/-- How an uploaded file gets its name: from the last response, from an earlier renaming, from the
scanned document, from the fallback, and each of them only where the ones before it give none. -/
inductive Called (run : Run) (config : Value) (kind : FileKind) (w : World) : String → Prop
  | response {v : Value} {t : String} (h : Responds run config w v) (ht : v.asText = .ok t) :
    Called run config kind w
      (FileName.withoutExtension (FileName.sanitized t) ++ "." ++ kind.extension)
  | renamed {name : String} (hno : ∀ v, ¬Responds run config w v)
    (h : ContextHas run w (newNameKey kind) (.text name)) (hne : name ≠ "") :
    Called run config kind w name
  | scanned {name : String} (hno : ∀ v, ¬Responds run config w v)
    (hnew : Unset run w (newNameKey kind)) (h : ContextHas run w "pdfFilename" (.text name))
    (hne : name ≠ "") :
    Called run config kind w (FileName.withoutExtension name ++ "." ++ kind.extension)
  | fallback {name : String} (hno : ∀ v, ¬Responds run config w v)
    (hnew : Unset run w (newNameKey kind)) (hpdf : Unset run w "pdfFilename")
    (h : config.field "fallbackFilename" = .text name) (hne : name ≠ "") :
    Called run config kind w
      (FileName.withoutExtension (FileName.sanitized name) ++ "." ++ kind.extension)
  | nowhere (hno : ∀ v, ¬Responds run config w v) (hnew : Unset run w (newNameKey kind))
    (hpdf : Unset run w "pdfFilename") (h : (config.field "fallbackFilename").truthy = false) :
    Called run config kind w ("document." ++ kind.extension)

theorem renamedKey_eq (kind : FileKind) : renamedKey kind = newNameKey kind := by
  cases kind <;> decide +kernel

theorem uploads_of_uploadKind {kind : FileKind} (h : uploadKind config run.dataKind = .ok kind) :
    Uploads run config kind := by
  unfold uploadKind at h
  obtain ⟨type,htype,h⟩ := eq_ok_of_bind h
  dsimp only at h
  split at h
  · rename_i k hk
    obtain rfl := Except.ok.inj h
    unfold FileKind.ofExtension? at hk
    exact ⟨type,htype,(by simpa using List.find?_some hk : k.extension = Text.lower type).symm⟩
  · cases h

theorem directs_of_uploadDirectory {p : SftpSettings} {kind : FileKind} {directory : String}
    (h : ((uploadDirectory run config p kind).exec w).1 = .ok directory) :
    Directs run config p kind w directory := by
  unfold uploadDirectory at h
  unfold Directs
  dsimp only at h
  split at h
  · rename_i hset
    rw [if_pos hset]
    exact h
  · rename_i hset
    rw [if_neg hset,← Except.ok.inj h,Sftp.rootIfEmpty]
    simp only [String.isEmpty_iff]

theorem isBlank_eq_false {v : Value} :
    Condition.isBlank v = false ↔ v ≠ .null ∧ v ≠ .text "" := by
  unfold Condition.isBlank
  split <;> simp_all

theorem responseName?_ok {kind : FileKind} {found : Option String}
    (h : ((responseName? run config kind).exec w).1 = .ok found) :
    (found = none ∧ ∀ v, ¬Responds run config w v) ∨ ∃ v t, Responds run config w v ∧
      v.asText = .ok t ∧
      found = some (FileName.withoutExtension (FileName.sanitized t) ++ "." ++ kind.extension) := by
  obtain ⟨w₁,hexec⟩ : ∃ w₁, (responseName? run config kind).exec w = (.ok found,w₁) :=
    ⟨_,Prod.ext h rfl⟩
  unfold responseName? at hexec
  dsimp only at hexec
  split at hexec
  · rename_i hunasked
    refine .inl ⟨(Except.ok.inj (congrArg Prod.fst hexec)).symm,fun v hv => ?_⟩
    simp [hv.asked,hv.path] at hunasked
  · rename_i hasked
    simp only [Bool.or_eq_true,Bool.not_eq_true',not_or,Bool.not_eq_false] at hasked
    obtain ⟨i,hi,hexec⟩ := (ReadOnly.lookup _ _).found hexec
    rw [show ((Work.edit (Edit.lookup run.last (config.field "filenameSourcePath"))).exec w).1 =
      .ok (w.store.reached run.last (config.field "filenameSourcePath")) from
        congrArg Prod.fst (Edit.exec_lookup _ _ _)] at hi
    obtain rfl := Except.ok.inj hi
    obtain ⟨v,hv,hexec⟩ := (ReadOnly.read _).found hexec
    have hvalue : w.store.read
      (w.store.reached run.last (config.field "filenameSourcePath")) = .ok v := hv
    split at hexec
    · rename_i hblank
      refine .inl ⟨(Except.ok.inj (congrArg Prod.fst hexec)).symm,fun u hu => ?_⟩
      obtain rfl : v = u := Except.ok.inj (hvalue.symm.trans hu.value)
      rw [isBlank_eq_false.2 hu.filled] at hblank
      cases hblank
    · rename_i hfilled
      obtain ⟨t,ht,hexec⟩ := ReadOnly.found_of hexec
      refine .inr ⟨v,t,⟨hasked.1,hasked.2,hvalue,?_⟩,ht,
        (Except.ok.inj (congrArg Prod.fst hexec)).symm⟩
      exact isBlank_eq_false.1 (by simpa using hfilled)

theorem eq_text_of_nameText {v : Value} {t : String} (h : nameText v = .ok t) : v = .text t := by
  unfold nameText at h
  split at h
  · rw [Except.ok.inj h]
  · cases h

theorem ne_empty_of_truthy {t : String} (h : (Value.text t).truthy = true) : t ≠ "" := by
  rintro rfl
  cases h

theorem called_of_uploadName {kind : FileKind} {name : String}
    (h : ((uploadName run config kind).exec w).1 = .ok (.text name)) :
    Called run config kind w name := by
  obtain ⟨w₁,hexec⟩ : ∃ w₁, (uploadName run config kind).exec w = (.ok (.text name),w₁) :=
    ⟨_,Prod.ext h rfl⟩
  have named {n : String} (h : (pure (.text n) : Work Value).exec w = (.ok (.text name),w₁)) :
      n = name := by simpa using congrArg Prod.fst h
  unfold uploadName at hexec
  obtain ⟨found,hfound,hexec⟩ := (responseName_readOnly run config kind).found hexec
  rcases responseName?_ok hfound with ⟨rfl,hno⟩ | ⟨v,t,hv,ht,rfl⟩
  · dsimp only at hexec
    obtain ⟨renamed,hrenamed,hexec⟩ := (entryValue_readOnly run _).found hexec
    rw [renamedKey_eq] at hrenamed
    split at hexec
    · rename_i hset
      obtain rfl : renamed = .text name := Except.ok.inj (congrArg Prod.fst hexec)
      exact .renamed hno hrenamed (ne_empty_of_truthy hset)
    · rename_i hunset
      have hnew : Unset run w (newNameKey kind) := ⟨renamed,hrenamed,by simpa using hunset⟩
      obtain ⟨pdf,hpdf,hexec⟩ := (entryValue_readOnly run _).found hexec
      split at hexec
      · rename_i hset
        obtain ⟨t,ht,hexec⟩ := (ReadOnly.of _).found hexec
        obtain rfl := eq_text_of_nameText ht
        obtain rfl := named hexec
        exact .scanned hno hnew hpdf (ne_empty_of_truthy hset)
      · rename_i hnone
        have hpdf : Unset run w "pdfFilename" := ⟨pdf,hpdf,by simpa using hnone⟩
        split at hexec
        · rename_i hset
          obtain ⟨t,ht,hexec⟩ := (ReadOnly.of _).found hexec
          have htext := eq_text_of_nameText ht
          rw [htext] at hset
          obtain rfl := named hexec
          exact .fallback hno hnew hpdf htext (ne_empty_of_truthy hset)
        · rename_i hunset
          obtain rfl := named hexec
          exact .nowhere hno hnew hpdf (by simpa using hunset)
  · obtain rfl := named hexec
    exact .response hv ht

theorem slash_mem_name {base : String} {kind : FileKind} :
    '/' ∈ (FileName.withoutExtension base ++ "." ++ kind.extension).toList ↔ '/' ∈ base.toList :=
  slash_mem_fileName.trans FileName.slash_mem_withoutExtension

theorem Unset.not_contextHas {key held : String} (h : Unset run w key) (hs : '/' ∈ held.toList) :
    ¬ContextHas run w key (.text held) := by
  intro hheld
  obtain ⟨v,hv,hfalse⟩ := h
  obtain rfl : v = .text held := Except.ok.inj (hv.symm.trans hheld)
  have hne : held ≠ "" := by
    rintro rfl
    simp at hs
  rw [truthy_text hne] at hfalse
  cases hfalse

/-- The name of a file has a slash exactly if the context holds one with a slash, and the last
response gives none. -/
theorem Called.slash_mem {kind : FileKind} {name : String} (h : Called run config kind w name) :
    '/' ∈ name.toList ↔ (∀ v, ¬Responds run config w v) ∧
      ∃ held, HoldsName run kind w held ∧ '/' ∈ held.toList := by
  -- where the context holds no name, none has a slash
  have unheld (hnew : Unset run w (newNameKey kind)) (hpdf : Unset run w "pdfFilename") :
      ¬∃ held, HoldsName run kind w held ∧ '/' ∈ held.toList := by
    rintro ⟨held,hheld | ⟨-,hheld⟩,hs⟩
    · exact hnew.not_contextHas hs hheld
    · exact hpdf.not_contextHas hs hheld
  cases h with
  | response h ht =>
    rw [slash_mem_name]
    exact iff_of_false (FileName.slash_not_mem_sanitized _) fun hs => hs.1 _ h
  | renamed hno h hne =>
    refine ⟨fun hs => ⟨hno,name,.inl h,hs⟩,fun ⟨_,held,hheld,hs⟩ => ?_⟩
    rcases hheld with hheld | ⟨⟨v,hv,hfalse⟩,-⟩
    · obtain rfl : name = held := by simpa using Except.ok.inj (h.symm.trans hheld)
      exact hs
    · obtain rfl : v = .text name := Except.ok.inj (hv.symm.trans h)
      rw [truthy_text hne] at hfalse
      cases hfalse
  | @scanned pdf hno hnew h hne =>
    rw [slash_mem_name]
    refine ⟨fun hs => ⟨hno,pdf,.inr ⟨hnew,h⟩,hs⟩,fun ⟨_,held,hheld,hs⟩ => ?_⟩
    rcases hheld with hheld | ⟨-,hheld⟩
    · exact absurd hheld (hnew.not_contextHas hs)
    · obtain rfl : pdf = held := by simpa using Except.ok.inj (h.symm.trans hheld)
      exact hs
  | fallback hno hnew hpdf h hne =>
    rw [slash_mem_name]
    exact iff_of_false (FileName.slash_not_mem_sanitized _) fun hs => unheld hnew hpdf hs.2
  | nowhere hno hnew hpdf h =>
    refine iff_of_false ?_ fun hs => unheld hnew hpdf hs.2
    cases kind <;> decide

/-- An upload that completes writes one file. It lies in the directory that the step resolves,
unless the directory ends in several slashes or the name of the file has one, and the latter is so
exactly if the context holds such a name and the last response gives none. A name that starts with a
slash is a path of its own. -/
theorem sftpUpload_lands (h : (sftpUpload run node).exec w = (.ok o,w')) :
    ∃ config kind p directory name path data,
      w.store.read node.config = .ok config ∧ Uploads run config kind ∧
      ((Profile.sftp (config.field "sftpConfigId")).exec w).1 = .ok p ∧
      Directs run config p kind w directory ∧ Called run config kind w name ∧
      w'.puts = w.puts ++ [(path,data)] ∧
      Entries.get? (w'.store.entries o.output) "remotePath" = some (.text path) ∧
      (Sftp.Lies directory path ↔
        if Text.startsWith name "/" then Sftp.Lies directory name
        else '/' ∉ name.toList ∧ Text.endsWith (Sftp.settled directory) "//" = false) ∧
      ('/' ∈ name.toList ↔ (∀ v, ¬Responds run config w v) ∧
        ∃ held, HoldsName run kind w held ∧ '/' ∈ held.toList) := by
  unfold sftpUpload at h
  obtain ⟨config,hconfig,h⟩ := (ReadOnly.read _).found h
  obtain ⟨kind,hkind,h⟩ := (ReadOnly.of _).found h
  obtain ⟨data,-,h⟩ := (bytesOf_readOnly run kind).found h
  obtain ⟨filename,hname,h⟩ := (uploadName_readOnly run config kind).found h
  obtain ⟨⟨⟩,-,h⟩ := (ReadOnly.require _).found h
  obtain ⟨p,hp,h⟩ := (ReadOnly.sftpProfile _).found h
  obtain ⟨directory,hdirectory,h⟩ := (uploadDirectory_readOnly run config p kind).found h
  obtain ⟨⟨⟩,-,h⟩ := (ReadOnly.require _).found h
  obtain ⟨path,w₁,hpath,h⟩ := exec_bind_eq_ok h
  -- all before the upload only looks, and nothing behind it writes another file
  obtain ⟨name,rfl,rfl,hputs⟩ := Sftp.upload_ok hpath
  obtain ⟨i,w₂,hw₂,h⟩ := (writesNoFile_edit _).ahead h
  extract_lets strategy rest at h
  obtain ⟨w₃,hw₃,h⟩ : ∃ w₃, World.SamePuts w₁ w₃ ∧ (rest ⟨⟩).exec w₃ = (.ok o,w') := by
    split at h
    · obtain ⟨⟨⟩,w₃,hw₃,h⟩ := (writesNoFile_edit _).further hw₂ h
      exact ⟨w₃,hw₃,h⟩
    · exact ⟨w₂,hw₂,h⟩
  obtain ⟨planted,w₄,hw₄,h⟩ := (writesNoFile_edit _).further hw₃ h
  obtain ⟨output,w₅,hout,h⟩ := exec_bind_eq_ok h
  cases h
  have hputs' := (trans_of World.SamePuts hw₄ (samePuts_of_edit hout)).trans hputs
  obtain ⟨hentries,-⟩ := newObject_ok hout
  have hcalled := called_of_uploadName hname
  refine ⟨config,kind,p,directory,name,_,data,hconfig,uploads_of_uploadKind hkind,hp,
    directs_of_uploadDirectory hdirectory,hcalled,hputs',?_,Sftp.remotePath_lies directory name,
    hcalled.slash_mem⟩
  rw [hentries]
  rfl

def scannedStep : Step Item := { id := "u", type := "sftp_upload", config := .cell 1 }

def scanned (name : String) : World where
  store := ⟨#[.object [("pdfFilename",.text name)],.object []]⟩
  db :=
    { sftp :=
        { rows := [{ id := 1, host := "files", username := "u",
                     directory := fun _ => some "/in/" }] } }

/-- The data of a document are written into the directory, or beside it where the name of the
document is a path of its own. -/
theorem sftpUpload_lands_scanned :
    (∃ (o : Outcome) (w' : World) (data : ByteArray),
      (sftpUpload { context := .cell 0 } scannedStep).exec (scanned "x.pdf") = (.ok o,w') ∧
      w'.puts = [("/in/x.json",data)] ∧ Sftp.Lies "/in/" "/in/x.json") ∧
    ∃ (o : Outcome) (w' : World) (data : ByteArray),
      (sftpUpload { context := .cell 0 } scannedStep).exec (scanned "/etc/x.pdf") = (.ok o,w') ∧
      w'.puts = [("/etc/x.json",data)] ∧ ¬Sftp.Lies "/in/" "/etc/x.json" := by
  have hputs : ∀ x ∈ [("x.pdf","/in/x.json"),("/etc/x.pdf","/etc/x.json")],
      (((sftpUpload { context := .cell 0 } scannedStep).exec (scanned x.1)).1.isOk &&
        ((sftpUpload { context := .cell 0 } scannedStep).exec (scanned x.1)).2.puts.map Prod.fst ==
          [x.2]) = true := by decide +kernel
  have hlands : ∀ x ∈ [("x.pdf","/in/x.json"),("/etc/x.pdf","/etc/x.json")],
      ∃ (o : Outcome) (w' : World) (data : ByteArray),
        (sftpUpload { context := .cell 0 } scannedStep).exec (scanned x.1) = (.ok o,w') ∧
        w'.puts = [(x.2,data)] := by
    intro x hx
    obtain ⟨hok,hpaths⟩ := Bool.and_eq_true_iff.1 (hputs x hx)
    rcases h : (sftpUpload { context := .cell 0 } scannedStep).exec (scanned x.1) with ⟨f | o,w'⟩ <;>
      rw [h] at hok hpaths
    · cases hok
    obtain ⟨config,kind,p,directory,name,path,data,-,-,-,-,-,hput,-,-,-⟩ := sftpUpload_lands h
    have hput : w'.puts = [(path,data)] := hput
    rw [hput] at hpaths
    obtain rfl : path = x.2 := by simpa using hpaths
    exact ⟨o,w',data,rfl,hput⟩
  have hbare : (Text.stripRight '/' (Sftp.settled "/in/")).toList = ['/','i','n'] := by
    decide +kernel
  obtain ⟨o,w',data,h,hput⟩ := hlands ("x.pdf","/in/x.json") (by simp)
  obtain ⟨o',w'',data',h',hput'⟩ := hlands ("/etc/x.pdf","/etc/x.json") (by simp)
  refine ⟨⟨o,w',data,h,hput,"x.json".toList,by decide,?_⟩,o',w'',data',h',hput',?_⟩
  · rw [hbare]
    decide
  · rintro ⟨file,-,hfile⟩
    rw [hbare] at hfile
    have hsecond := congrArg (·[1]?) hfile
    simp at hsecond

end Steps

end StepGraph
