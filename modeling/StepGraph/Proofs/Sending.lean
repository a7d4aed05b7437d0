import StepGraph.Proofs.Executors

/-!
The files that a run sends. Uploads send a file each, messages what is attached to them. A step that
sends the data file of its run looks at the world, puts the file together and sends it once, or it
fails and sends nothing.
-/
namespace StepGraph

open Attempt

def Call.files : Call → List ByteArray
  | .sftp (.put _ data) => [data]
  | .mail (.send m) => (m.parts.filter (·.disposition.isSome)).map Mail.Part.data
  | _ => []

namespace World

def sent (w : World) : List ByteArray := w.calls.flatMap Call.files

def SameSent (w w' : World) : Prop := w'.sent = w.sent

instance : IsPreorder World SameSent where
  refl _ := rfl
  trans _ _ _ h h' := h'.trans h

end World

namespace Mail

theorem files_compose (e : Email) (sender : String) :
    Call.files (.mail (.send (compose e sender))) = (e.attachment.map Attachment.content).toList := by
  obtain ⟨receivers,subject,body,cc,attachment⟩ := e
  cases attachment <;> rfl

end Mail

namespace Work

variable {α β : Type}

abbrev SendsNothing (p : Work α) : Prop := Keeps World.SameSent p

theorem ReadOnly.sendsNothing {p : Work α} (h : ReadOnly p) : SendsNothing p :=
  h.same.mono fun _ _ he => he ▸ rfl

theorem of_ok (x : α) : Work.of (.ok x) = pure x := rfl

theorem sendsNothing_edit (e : Edit α) : SendsNothing (Work.edit e) := fun _ => rfl

theorem sendsNothing_note {c : Call} (h : c.files = []) : SendsNothing (Work.note c) := by
  intro w
  change (w.calls ++ [c]).flatMap Call.files = w.calls.flatMap Call.files
  simp [h]

/-- From a world, a program sends a file once, or it fails and sends nothing; it fails where there
is no file. -/
def SendsAt (file : Except Fault ByteArray) (w : World) (p : Work α) : Prop :=
  (∃ data, file = .ok data ∧ (p.exec w).2.sent = w.sent ++ [data]) ∨
    (p.exec w).2.sent = w.sent ∧ ∃ f, (p.exec w).1 = .error f

abbrev Sends (data : ByteArray) (p : Work α) : Prop := ∀ w, SendsAt (.ok data) w p

theorem Sends.at {data : ByteArray} {p : Work α} (h : Sends data p) (w : World) :
    SendsAt (.ok data) w p := h w

theorem SendsAt.error {file : Except Fault ByteArray} {w : World} {p : Work α} {f : Fault}
    (h : p.exec w = (.error f,w)) : SendsAt file w p := .inr (by rw [h]; exact ⟨rfl,f,rfl⟩)

theorem SendsAt.behind {file : Except Fault ByteArray} {w : World} {p : Work α} {f : α → Work β}
    (hp : ReadOnly p) (hf : ∀ x, (p.exec w).1 = .ok x → SendsAt file w (f x)) :
    SendsAt file w (p >>= f) := by
  have he := hp.exec w
  rcases hx : (p.exec w).1 with e | x <;> rw [hx] at he
  · exact .error (exec_bind_error he f)
  · unfold SendsAt
    rw [exec_bind_ok he]
    exact hf x hx

theorem Sends.behind {data : ByteArray} {p : Work α} {f : α → Work β} (hp : SendsNothing p)
    (hf : ∀ x, Sends data (f x)) : Sends data (p >>= f) := by
  intro w
  have h : (p.exec w).2.sent = w.sent := hp w
  unfold SendsAt
  rw [exec_bind]
  rcases hw : p.exec w with ⟨e | x,w'⟩ <;> rw [hw] at h
  · exact .inr ⟨h,e,rfl⟩
  · have hs := hf x w'
    unfold SendsAt at hs
    rwa [h] at hs

theorem Sends.guard {data : ByteArray} {c : Prop} {_ : Decidable c} {p : Work PUnit}
    {f : PUnit → Work α} (hp : SendsNothing p) (hf : ∀ u, Sends data (f u)) :
    Sends data (if c then p >>= f else f ⟨⟩) := by
  split
  · exact .behind hp hf
  · exact hf ⟨⟩

theorem Sends.front {data : ByteArray} {p : Work α} {f : α → Work β} (hp : Sends data p)
    (hf : ∀ x, SendsNothing (f x)) : Sends data (p >>= f) := by
  intro w
  rcases hp w with ⟨d,hd,hs⟩ | ⟨hs,e,he⟩
  · refine .inl ⟨d,hd,?_⟩
    rw [exec_bind]
    rcases hw : p.exec w with ⟨e | x,w'⟩ <;> rw [hw] at hs
    · exact hs
    · exact (hf x w').trans hs
  · have hw : p.exec w = (.error e,(p.exec w).2) := Prod.ext he rfl
    refine .inr ?_
    rw [exec_bind_error hw]
    exact ⟨hs,e,rfl⟩

/-- A program whose fault is looked at, and comes out again behind what is done then. -/
theorem Sends.closing {data : ByteArray} {p : Work α} {rest : Except Fault α → Work β}
    (hp : Sends data p) (hr : ∀ done, SendsNothing (rest done))
    (hf : ∀ f w, ∃ e, ((rest (.error f)).exec w).1 = .error e) :
    Sends data (Work.attempt p >>= rest) := by
  intro w
  have ha : (Work.attempt p).exec w = (.ok (p.exec w).1,(p.exec w).2) := rfl
  have h : ((rest (p.exec w).1).exec (p.exec w).2).2.sent = (p.exec w).2.sent := hr _ _
  unfold SendsAt
  rw [exec_bind_ok ha,h]
  rcases hp w with hs | ⟨hs,f,he⟩
  · exact .inl hs
  · rw [he]
    exact .inr ⟨hs,hf f _⟩

end Work

open Work

namespace Sftp

theorem noteSftp_sendsNothing {a : SftpAction} (h : Call.files (.sftp a) = []) :
    SendsNothing (noteSftp a) := sendsNothing_note h

theorem ensureDirectory_sendsNothing (path : String) : SendsNothing (ensureDirectory path) := by
  intro w
  unfold ensureDirectory
  rw [exec_bind_ok (exec_get w)]
  simp only
  split
  · rfl
  · change (w.calls ++ [_]).flatMap Call.files = _
    simp [Call.files,World.sent]

theorem put_sends (path : String) (data : ByteArray) : Sends data (noteSftp (.put path data)) := by
  refine fun w => .inl ⟨data,rfl,?_⟩
  change (w.calls ++ [_]).flatMap Call.files = _
  simp [Call.files,World.sent]

theorem transfer_sends (directory path : String) (data : ByteArray) :
    Sends data (transfer directory path data) := by
  refine .behind (Keeps.closed.forM fun p _ => ensureDirectory_sendsNothing p) fun _ => ?_
  refine .behind Keeps.get fun w => ?_
  split
  · exact fun w => .error rfl
  · exact put_sends path data

theorem upload_sends (s : SftpSettings) (directory : String) (filename : Value)
    (data : ByteArray) : Sends data (upload s directory filename data) := by
  unfold upload
  extract_lets key jp
  have rest (name : String) : Sends data (jp name) := by
    refine .behind (noteSftp_sendsNothing rfl) fun _ => .behind (noteSftp_sendsNothing rfl) fun _ => ?_
    refine .behind Keeps.get fun w => ?_
    split
    · exact .behind (noteSftp_sendsNothing rfl) fun _ => fun w => .error rfl
    · refine (transfer_sends _ _ data).closing (fun done => ?_) fun f w => ⟨f,rfl⟩
      refine (noteSftp_sendsNothing rfl).bind fun _ => (noteSftp_sendsNothing rfl).bind fun _ => ?_
      exact (Keeps.of done).bind fun _ => Keeps.closed.pure _
  split
  · exact .behind (Keeps.closed.pure _) rest
  · exact .behind (.throw _) rest

end Sftp

namespace Mail

theorem login_sendsNothing (s : MailSettings) : SendsNothing (login s) := by
  unfold login
  split
  · split
    · exact sendsNothing_note rfl
    · exact Keeps.closed.pure _
  · exact Keeps.closed.pure _

theorem note_sends {m : Message} {data : ByteArray} (h : Call.files (.mail (.send m)) = [data]) :
    Sends data (noteMail (.send m)) := by
  refine fun w => .inl ⟨data,rfl,?_⟩
  change (w.calls ++ [_]).flatMap Call.files = _
  simp [h,World.sent]

theorem send_sends (s : MailSettings) {m : Message} {data : ByteArray}
    (h : Call.files (.mail (.send m)) = [data]) : Sends data (send s m) := by
  have delivered : Sends data (deliver s m) := by
    unfold deliver
    refine .guard (sendsNothing_note rfl) fun _ => .behind (login_sendsNothing s) fun _ => ?_
    refine .behind Keeps.get fun w => ?_
    split
    · exact fun w => .error rfl
    · exact note_sends h
  refine .behind (sendsNothing_note rfl) fun _ => .behind Keeps.get fun w => ?_
  split
  · exact fun w => .error rfl
  · exact delivered.closing (fun done => (sendsNothing_note rfl).bind fun _ => Keeps.of done)
      fun f w => ⟨f,rfl⟩

end Mail

namespace Steps

variable {run : Run} {node : Step Item}

theorem dataOf_sends {α : Type} {w : World} {v : Value} {f : ByteArray → Work α}
    (hv : w.store.read (Context.get w.store run.context "extractedData") = .ok v)
    (hf : ∀ data, Sends data (f data)) :
    SendsAt (Payload.serialize v run.dataKind) w (dataOf run >>= f) := by
  have he : (run.entryValue "extractedData").exec w = (.ok v,w) := by
    rw [← hv]
    rfl
  have hd : (dataOf run).exec w = (Payload.serialize v run.dataKind,w) := by
    unfold dataOf
    rw [exec_bind_ok he]
    rfl
  refine .behind (dataOf_readOnly run) fun data hdata => ?_
  rw [hd] at hdata
  rw [show Payload.serialize v run.dataKind = .ok data from hdata]
  exact (hf data).at w

theorem sftpUpload_sends {w : World} {config v : Value} (hc : w.store.read node.config = .ok config)
    (hk : uploadKind config run.dataKind ≠ .ok .pdf)
    (hv : w.store.read (Context.get w.store run.context "extractedData") = .ok v) :
    SendsAt (Payload.serialize v run.dataKind) w (sftpUpload run node) := by
  unfold sftpUpload
  refine .behind (.read _) fun config' hc' => ?_
  obtain rfl : config = config' := Except.ok.inj (hc.symm.trans hc')
  refine .behind (.of _) fun kind hkind => ?_
  have hbytes : bytesOf run kind = dataOf run := by
    cases kind with
    | pdf => exact absurd hkind hk
    | _ => rfl
  rw [hbytes]
  refine dataOf_sends hv fun data => ?_
  refine .behind (uploadName_readOnly run config kind).sendsNothing fun name => ?_
  refine .behind (ReadOnly.require _).sendsNothing fun _ => ?_
  refine .behind (ReadOnly.sftpProfile _).sendsNothing fun p => ?_
  refine .behind (uploadDirectory_readOnly run config p kind).sendsNothing fun directory => ?_
  refine .behind (ReadOnly.require _).sendsNothing fun _ => ?_
  refine (Sftp.upload_sends p directory name data).front fun path => ?_
  refine (sendsNothing_edit _).bind fun nameItem => Keeps.closed.guard (sendsNothing_edit _) fun _ => ?_
  exact (sendsNothing_edit _).bind fun _ => (sendsNothing_edit _).bind fun _ => Keeps.closed.pure _

/-- The configuration of a message that has the data file attached. -/
def AttachesData (config : Value) : Prop :=
  (config.field "includeAttachment").truthy = true ∧
    (config.field "attachmentSource").orElse (.text "original_pdf") = .text "extracted_data"

theorem attached_data (run : Run) : attached run (.text "extracted_data") =
    run.entryValue "renamedFilename" >>= fun name => dataOf run >>= fun data =>
      pure ⟨name.orElse (.text (fileName "extracted_data" run.dataKind)),data,run.dataKind⟩ := rfl

theorem mapM_attachment (file : NamedFile) :
    (∃ f, (some file).mapM NamedFile.attachment = .error f) ∨
      ∃ a, (some file).mapM NamedFile.attachment = .ok (some a) ∧ a.content = file.content := by
  rw [Option.mapM_some]
  unfold NamedFile.attachment
  cases file.name.display with
  | error f => exact .inl ⟨f,rfl⟩
  | ok name => exact .inr ⟨_,rfl,rfl⟩

theorem attachmentOf_sends {α : Type} {w : World} {config v : Value} {f : Option NamedFile → Work α}
    (ha : AttachesData config)
    (hv : w.store.read (Context.get w.store run.context "extractedData") = .ok v)
    (hf : ∀ file, Sends file.content (f (some file))) :
    SendsAt (Payload.serialize v run.dataKind) w (attachmentOf run config >>= f) := by
  obtain ⟨hi,hs⟩ := ha
  unfold attachmentOf
  rw [if_pos hi,hs,map_eq_pure_bind,bind_assoc,attached_data,bind_assoc]
  refine .behind (entryValue_readOnly run _) fun name _ => ?_
  rw [bind_assoc]
  refine dataOf_sends hv fun data => ?_
  rw [pure_bind,pure_bind]
  exact hf ⟨_,data,run.dataKind⟩

theorem emailAction_sends {w : World} {config v : Value}
    (hc : w.store.read node.config = .ok config) (ha : AttachesData config)
    (hv : w.store.read (Context.get w.store run.context "extractedData") = .ok v) :
    SendsAt (Payload.serialize v run.dataKind) w (emailAction run node) := by
  unfold emailAction
  refine .behind (.read _) fun config' hc' => ?_
  obtain rfl : config = config' := Except.ok.inj (hc.symm.trans hc')
  refine .behind (scope_readOnly run) fun scope _ => .behind (.of _) fun recipients _ => ?_
  extract_lets receivers jp
  have rest : SendsAt (Payload.serialize v run.dataKind) w (jp ⟨⟩) := by
    refine .behind (copyTo_readOnly run config _) fun cc _ => .behind (.of _) fun subject _ => ?_
    refine .behind (.of _) fun body _ => attachmentOf_sends ha hv fun file => ?_
    refine .behind (ReadOnly.require _).sendsNothing fun _ => ?_
    refine .behind (ReadOnly.mailProfile _).sendsNothing fun p => ?_
    refine .behind (ReadOnly.require _).sendsNothing fun _ => ?_
    refine .behind (ReadOnly.of _).sendsNothing fun copies => ?_
    rcases mapM_attachment file with ⟨f,hf⟩ | ⟨a,hf,hcontent⟩ <;> rw [hf]
    · exact fun w => .error rfl
    · rw [of_ok,pure_bind]
      refine (Mail.send_sends p ?_).front fun _ => (sendsNothing_edit _).bind fun _ => ?_
      · rw [Mail.files_compose,Option.map_some,hcontent]
        rfl
      · exact Keeps.closed.pure _
  split
  · exact .error rfl
  · exact rest

end Steps

end StepGraph
