import StepGraph.Proofs.ComputedField
import StepGraph.Proofs.FunctionMirror
import StepGraph.Proofs.OwnedWrite

/-!
Computed fields record by record. Mappings are applied in place, and what a function passes on from
its document is hung into the record uncopied. As long as no mapping writes below a container that
an earlier one passed on, this comes to the same as computing every record's fields from its tree
alone, and the documents of the functions stay as they are.
-/
namespace StepGraph

open Attempt

/-- A program stops with the fault of a computation, or comes to a result that fits the computed
one and changes the shared containers only. -/
def Work.EndsLike {α β : Type} (p : Work α) (w : World) (r : Except Fault β)
    (P : α → Store → β → Prop) : Prop :=
  match r with
  | .error f => (p.exec w).1 = .error f
  | .ok y => ∃ x s', p.exec w = (.ok x,{ w with store := s' }) ∧ P x s' y

namespace Work.EndsLike

variable {α β γ δ : Type} {p : Work α} {w : World} {r : Except Fault β} {P : α → Store → β → Prop}

theorem bind {k : α → Work γ} {g : β → Except Fault δ} {Q : γ → Store → δ → Prop}
    (h : EndsLike p w r P)
    (hk : ∀ x s' y, r = .ok y → P x s' y → EndsLike (k x) { w with store := s' } (g y) Q) :
    EndsLike (p >>= k) w (r >>= g) Q := by
  cases r with
  | error f =>
    change ((p >>= k).exec w).1 = .error f
    rw [exec_bind_error (Prod.ext h rfl)]
  | ok y =>
    obtain ⟨x,s',hexec,hP⟩ := h
    have hx := hk x s' y rfl hP
    change EndsLike (p >>= k) w (g y) Q
    unfold EndsLike at hx ⊢
    rw [exec_bind_ok hexec]
    exact hx

/-- A step with no counterpart among the trees. -/
theorem behind {k : α → Work γ} {Q : γ → Store → β → Prop} {x : α} {s' : Store}
    (h : p.exec w = (.ok x,{ w with store := s' })) (hk : EndsLike (k x) { w with store := s' } r Q) :
    EndsLike (p >>= k) w r Q := by
  unfold EndsLike at hk ⊢
  rw [exec_bind_ok h]
  exact hk

theorem pure {x : α} {y : β} (h : P x w.store y) : EndsLike (Pure.pure x) w (.ok y) P :=
  ⟨x,w.store,rfl,h⟩

theorem of {q : Except Fault α} {R : α → β → Prop} (h : Fault.Rel R q r) :
    EndsLike (Work.of q) w r fun x s' y => s' = w.store ∧ R x y := by
  cases h with
  | ok h => exact ⟨_,w.store,rfl,rfl,h⟩
  | error f => rfl

theorem store {k : Store → Work α} (h : EndsLike (k w.store) w r P) :
    EndsLike (Work.store >>= k) w r P := h

theorem scope {c : Item} {k : Scope → Work α} (h : EndsLike (k (Scope.ofItem w.store c)) w r P) :
    EndsLike (Work.scope c >>= k) w r P := h

theorem mono {Q : α → Store → β → Prop} (h : EndsLike p w r P)
    (hQ : ∀ x s' y, r = .ok y → P x s' y → Q x s' y) : EndsLike p w r Q := by
  cases r with
  | error f => exact h
  | ok y =>
    obtain ⟨x,s',hexec,hP⟩ := h
    exact ⟨x,s',hexec,hQ x s' y rfl hP⟩

theorem map {f : α → γ} {Q : γ → Store → β → Prop} (h : EndsLike p w r fun x s' y => Q (f x) s' y) :
    EndsLike (p >>= fun x => Pure.pure (f x)) w r Q := by
  cases r with
  | error e =>
    change ((p >>= fun x => Pure.pure (f x)).exec w).1 = .error e
    rw [exec_bind_error (Prod.ext h rfl)]
  | ok y =>
    obtain ⟨x,s',hexec,hQ⟩ := h
    exact ⟨f x,s',by rw [exec_bind_ok hexec]; rfl,hQ⟩

end Work.EndsLike

namespace FieldFunction

open Store

abbrev Documents := List (Scalar × Value)

def Documents.find (docs : Documents) (key : Value) : Except Fault (Option Value) :=
  match key with
  | .scalar k => .ok ((docs.reverse.find? fun d => d.1.sameKey k).map Prod.snd)
  | _ => .error .wrongKind

def Result.kept? : Result Value → Option Value
  | .text t => if t.isEmpty then none else some (.text t)
  | .part .null => none
  | .part (.text t) => if t.isEmpty then none else some (.text t)
  | .part x => some x

def valueFor (docs : Documents) (mapping record : Value) : Except Fault (Option Value) := do
  let found ← docs.find (← mapping.member "functionId")
  match found.filter Value.truthy with
  | none => return none
  | some logic =>
    if !(mapping.field "fieldName").truthy then return none
    return (← evaluate Value.access logic (Scope.ofValue record)).kept?

def withField (record path x : Value) : Except Fault Value :=
  match path with
  | .text p =>
    match record.setField p x with
    | (v, none) => .ok v
    | (_, some f) => .error f
  | .bytes _ => .error .wrongKind
  | _ => .error .noSuchMember

def filledBy (docs : Documents) (record mapping : Value) : Except Fault Value := do
  match ← valueFor docs mapping record with
  | none => return record
  | some x => withField record (mapping.field "fieldName") x

def filled (docs : Documents) (mappings : List Value) (record : Value) : Except Fault Value :=
  if record.isObject then mappings.foldlM (filledBy docs) record else .ok record

def target? (mapping : Value) : Option (List String) :=
  (mapping.field "fieldName").text?.map Value.fieldPlaces

/-- For some record a mapping passes on a container of its function's document. -/
def Shares (docs : Documents) (mapping : Value) : Prop :=
  ∃ record x, valueFor docs mapping record = .ok (some x) ∧ x.layer.isContainer = true

def WritesBelow (mapping earlier : Value) : Prop :=
  ∃ path further, target? earlier = some path ∧ target? mapping = some further ∧
    Owned.Beneath path further

def LibraryTells (s : Store) (P : Nat → Prop) (functions : Library) (docs : Documents) : Prop :=
  List.Forall₂ (fun f d => f.1 = d.1 ∧ s.TellsIn P f.2 d.2) functions docs

variable {s s' : Store} {P : Nat → Prop} {functions : Library} {docs : Documents}

theorem LibraryTells.of_agrees (h : LibraryTells s P functions docs) (hP : s.Region P)
    (ha : s.Agrees P s') : LibraryTells s' P functions docs :=
  h.imp fun _ _ hf => ⟨hf.1,hf.2.of_agrees hP ha⟩

theorem LibraryTells.find (h : LibraryTells s P functions docs) (key : Value) :
    Fault.Rel (Option.Rel fun i v => (∃ d ∈ docs, d.2 = v) ∧ s.TellsIn P i v)
      (functions.find key) (docs.find key) := by
  cases key with
  | list xs => exact .error _
  | object es => exact .error _
  | scalar k =>
    refine .ok ?_
    have hr := List.rel_reverse h
    have hmem : ∀ d ∈ docs.reverse, d ∈ docs := fun d => List.mem_reverse.1
    revert hr hmem
    generalize functions.reverse = fs, docs.reverse = ds
    intro hr hmem
    induction hr with
    | nil => exact .none
    | @cons f d fs ds hf _ ih =>
      simp only [List.find?_cons,hf.1]
      split
      · exact .some ⟨⟨d,hmem d List.mem_cons_self,rfl⟩,hf.2⟩
      · exact ih fun d hd => hmem d (List.mem_cons_of_mem _ hd)

theorem written?_rel {r : Result Item} {t : Result Value} (h : Result.Rel (s.TellsIn P) r t) :
    Option.Rel (s.TellsIn P) (r.written? s) t.kept? := by
  cases h with
  | text t =>
    simp only [Result.written?,Result.kept?]
    split
    · exact .none
    · exact .some ⟨trivial,(tells_mirrors s).leaf _⟩
  | @part x v h =>
    have hl : Layer.Rel s.Tells (s.layer x) v.layer := (tells_mirrors s).layer x v h.2
    generalize hx : s.layer x = l at hl
    cases v with
    | scalar a =>
      cases hl
      cases a with
      | null =>
        simp only [Result.written?,hx]
        exact .none
      | text t =>
        simp only [Result.written?,Result.kept?,hx]
        split
        · exact .none
        · exact .some h
      | _ =>
        simp only [Result.written?,hx]
        exact .some h
    | list _ | object _ =>
      cases hl
      simp only [Result.written?,hx]
      exact .some h

theorem owned_of_tells {x : Item} {v : Value} (hP : s.Region P) (h : s.TellsIn P x v) :
    ∃ p : Owned, p.item = x ∧ p.tree = v ∧ p.ids = [] ∧ p.StoredIn s P ∧
      p.isGuest = v.layer.isContainer := by
  have hl : Layer.Rel s.Tells (s.layer x) v.layer := (tells_mirrors s).layer x v h.2
  cases x with
  | leaf a =>
    obtain rfl : v = .scalar a := by
      have hread := h.2.read
      cases hread
      rfl
    exact ⟨.leaf a,rfl,by rw [Owned.tree],by rw [Owned.ids],.leaf a,rfl⟩
  | cell id =>
    refine ⟨.guest id v,rfl,by rw [Owned.tree],by rw [Owned.ids],.guest h,?_⟩
    obtain ⟨c,hcell⟩ : ∃ c, s.cells[id]? = some c :=
      ⟨_,Array.getElem?_eq_getElem (hP.bounded id h.1)⟩
    rw [layer,hcell] at hl
    cases c <;> simp only [Cell.layer] at hl <;> generalize v.layer = m at hl <;> cases hl <;> rfl

def NoLookup (docs : Documents) : Prop :=
  ∀ d ∈ docs, kind? Value.access d.2 ≠ .ok (some lookupName)

variable {w : World} {attempts : Int} {mappings : List Value} {id : Nat}
  {es : List (String × Owned)} {os : List Owned}

theorem evaluateAny_endsLike {doc record : Item} {logic tree : Value} (hP : s.Region P)
    (hl : s.TellsIn P doc logic) (ht : s.Tells record tree)
    (hn : kind? Value.access logic ≠ .ok (some lookupName)) :
    Work.EndsLike (evaluateAny s.access attempts doc (Scope.ofItem s record)) w
      (evaluate Value.access logic (Scope.ofValue tree)) fun r s' t =>
        s' = w.store ∧ Result.Rel (s.TellsIn P) r t := by
  have hscope : Scope.ofItem s record = Scope.ofValue tree := (tells_mirrors s).scope ht
  have mirrors := tellsIn_mirrors hP.encloses
  have hkind : kind? s.access doc = kind? Value.access logic := kind?_eq mirrors hl
  have hevaluate : Fault.Rel (Result.Rel (s.TellsIn P))
      (evaluate s.access doc (Scope.ofValue tree))
      (evaluate Value.access logic (Scope.ofValue tree)) := evaluate_rel mirrors hl
  unfold evaluateAny
  rw [hscope,hkind]
  cases hk : kind? Value.access logic with
  | error f =>
    have he : evaluate Value.access logic (Scope.ofValue tree) = .error f := by
      unfold evaluate
      rw [hk]
      rfl
    rw [he]
    rfl
  | ok kind =>
    have hne : ¬ (kind == some lookupName) = true := fun h => hn (by rw [hk,eq_of_beq h])
    change Work.EndsLike (if kind == some lookupName then _ else _) _ _ _
    rw [if_neg hne]
    exact .of hevaluate

theorem computed_endsLike (hP : w.store.Region P) (hd : LibraryTells w.store P functions docs)
    (hn : NoLookup docs)
    {record : Item} {tree : Value} (ht : w.store.Tells record tree) (mapping : Value) :
    Work.EndsLike (do
        let found ← Work.of (functions.find (← Work.of (mapping.member "functionId")))
        computed attempts found record mapping) w (valueFor docs mapping tree) fun o s' p =>
      s' = w.store ∧ Option.Rel (w.store.TellsIn P) o p := by
  refine (Work.EndsLike.of (.refl (mapping.member "functionId"))).bind fun key s' key' _ hkey => ?_
  obtain ⟨rfl,rfl⟩ := hkey
  refine (Work.EndsLike.of (hd.find key)).bind fun found s' found' _ hfound => ?_
  obtain ⟨rfl,hfound⟩ := hfound
  have none : Work.EndsLike (Pure.pure none) w (.ok none) fun o s' p =>
      s' = w.store ∧ Option.Rel (w.store.TellsIn P) o p := .pure ⟨rfl,.none⟩
  unfold computed
  refine .store ?_
  cases hfound with
  | none => exact none
  | @some doc logic h =>
    obtain ⟨⟨d,hd,rfl⟩,htells⟩ := h
    have htruthy : w.store.view.truthy doc = d.2.truthy := (tells_mirrors _).truthy htells.2
    cases ht' : d.2.truthy with
    | false =>
      simp only [Option.filter,htruthy,ht',Bool.false_eq_true,if_false]
      exact none
    | true =>
      simp only [Option.filter,htruthy,ht',if_true]
      split
      · exact none
      · refine .scope ?_
        refine (evaluateAny_endsLike hP htells ht (hn d hd)).bind fun result s' result' _ hr => ?_
        obtain ⟨rfl,hr⟩ := hr
        exact .pure ⟨rfl,written?_rel hr⟩

theorem withField_endsLike {x : Item} {v : Value} (hv : w.store.TellsIn P x v) (path : Value)
    (h : Owned.Held P w.store [.object id es])
    (hc : ∀ p, path = .text p → Owned.Clear (Value.fieldPlaces p) (.object id es)) :
    Work.EndsLike (writeField (.cell id) path x) w
      (withField (Owned.object id es).tree path v) fun _ s' t => ∃ es',
        (Owned.object id es').tree = t ∧
        Owned.Update P w.store [.object id es] s' [.object id es'] ∧
        ∀ further, (∀ p, path = .text p → Owned.Beneath (Value.fieldPlaces p) further →
            v.layer.isContainer = false) →
          Owned.Clear further (.object id es) → Owned.Clear further (.object id es') := by
  cases path with
  | list xs => rfl
  | object fs => rfl
  | scalar a =>
    cases a with
    | text p =>
      obtain ⟨o,hitem,htree,hids,hstands,hguest⟩ := owned_of_tells h.region hv
      obtain ⟨s',es',hstore,hwritten,hw⟩ :=
        Owned.writes hids (Value.fieldPlaces p) h hstands (hc p rfl)
      rw [hitem] at hstore
      rw [htree] at hwritten
      simp only [writeField,withField,Value.setField,hwritten]
      refine ⟨(),s',?_,es',rfl,hw.update,fun further hf hclear => ?_⟩
      · have hset : w.store.setField (.cell id) p x = (s',none) := hstore
        simp only [Work.edit,Edit.attempt,exec_mk,ExceptT.run_mk,hset]
      · have hfits : Owned.OutOfWay (Value.fieldPlaces p) o further :=
          fun hb => hguest.trans (hf p rfl hb)
        exact List.forall_mem_singleton.1
          (hw.clear further hfits (List.forall_mem_singleton.2 hclear))
    | _ => rfl

def Open (mapping : Value) (o : Owned) : Prop :=
  ∀ path, target? mapping = some path → Owned.Clear path o

theorem target?_text {mapping : Value} {p : String} (h : mapping.field "fieldName" = .text p) :
    target? mapping = some (Value.fieldPlaces p) := by
  simp [target?,h,Value.text?]

theorem applyOne_elim (attempts : Int) (functions : Library) (record : Item) (mapping : Value) :
    applyOne attempts functions record mapping = (do
      let found ← Work.of (functions.find (← Work.of (mapping.member "functionId")))
      computed attempts found record mapping) >>= fun o => o.elim (pure false) fun x => do
        writeField record (mapping.field "fieldName") x
        return true := by
  rw [applyOne_eq,bind_assoc]
  refine bind_congr fun key => ?_
  rw [bind_assoc]
  exact bind_congr fun found => bind_congr fun o => by cases o <;> rfl

theorem applyOne_endsLike (hd : LibraryTells w.store P functions docs) (hn : NoLookup docs)
    (h : Owned.Held P w.store [.object id es]) {mapping : Value}
    (hc : Open mapping (.object id es)) :
    Work.EndsLike (applyOne attempts functions (.cell id) mapping) w
      (filledBy docs (Owned.object id es).tree mapping) fun _ s' t => ∃ es',
        (Owned.object id es').tree = t ∧
        Owned.Update P w.store [.object id es] s' [.object id es'] ∧
        ∀ later, (Shares docs mapping → ¬ WritesBelow later mapping) →
          Open later (.object id es) → Open later (.object id es') := by
  rw [applyOne_elim]
  have htells : w.store.Tells (.cell id) (Owned.object id es).tree := h.tells List.mem_cons_self
  refine (computed_endsLike h.region hd hn htells mapping).bind fun o s' p hvalue hop => ?_
  obtain ⟨rfl,hop⟩ := hop
  cases hop with
  | none => exact .pure ⟨es,rfl,.refl h,fun _ _ hopen => hopen⟩
  | @some x v hv =>
    have hwrite := withField_endsLike (w := w) hv (mapping.field "fieldName") h
      fun p hp => hc _ (target?_text hp)
    refine Work.EndsLike.map (hwrite.mono ?_)
    rintro - s' t - ⟨es',htree,hupdate,hclear⟩
    refine ⟨es',htree,hupdate,fun later hlater hopen further hfurther => ?_⟩
    refine hclear further (fun p hp hb => ?_) (hopen further hfurther)
    by_contra hcontainer
    have hshares : Shares docs mapping := ⟨_,v,hvalue,eq_true_of_ne_false hcontainer⟩
    exact hlater hshares ⟨_,further,target?_text hp,hfurther,hb⟩

theorem LibraryTells.update {os' : List Owned} (hd : LibraryTells s P functions docs)
    (h : Owned.Held P s os) (hu : Owned.Update P s os s' os') :
    LibraryTells s' P functions docs :=
  hd.of_agrees h.region (hu.guests h)

/-- No mapping writes below a container that an earlier one may pass on. -/
def NoneWritesBelow (docs : Documents) (mappings : List Value) : Prop :=
  mappings.Pairwise fun earlier mapping => Shares docs earlier → ¬ WritesBelow mapping earlier

theorem mapM_applyOne_endsLike (hd : LibraryTells w.store P functions docs) (hn : NoLookup docs)
    (h : Owned.Held P w.store [.object id es]) (ha : NoneWritesBelow docs mappings)
    (hc : ∀ m ∈ mappings, Open m (.object id es)) :
    Work.EndsLike (mappings.mapM (applyOne attempts functions (.cell id))) w
      (mappings.foldlM (filledBy docs) (Owned.object id es).tree) fun _ s' t => ∃ es',
        (Owned.object id es').tree = t ∧
        Owned.Update P w.store [.object id es] s' [.object id es'] := by
  induction mappings generalizing w es with
  | nil => exact .pure ⟨es,rfl,.refl h⟩
  | cons m rest ih =>
    obtain ⟨hm,hrest⟩ := List.forall_mem_cons.1 hc
    obtain ⟨hlater,ha⟩ := List.pairwise_cons.1 ha
    rw [List.mapM_cons,List.foldlM_cons]
    refine (applyOne_endsLike hd hn h hm).bind fun wrote s' t _ hfirst => ?_
    obtain ⟨es',rfl,hupdate,hopen⟩ := hfirst
    have hheld := hupdate.held
    refine Work.EndsLike.map ((ih (w := { w with store := s' }) (hd.update h hupdate) hheld ha
      fun m' hm' => hopen m' (hlater m' hm') (hrest m' hm')).mono ?_)
    rintro - s'' t - ⟨es'',htree,hupdate'⟩
    exact ⟨es'',htree,hupdate.trans hupdate'⟩

/-- A record without guests is filled as its tree is. -/
theorem applyRecord_endsLike (hd : LibraryTells w.store P functions docs) (hn : NoLookup docs)
    (ha : NoneWritesBelow docs mappings) {o : Owned} (h : Owned.Held P w.store [o])
    (ho : o.GuestFree) :
    Work.EndsLike (applyRecord attempts functions mappings o.item) w (filled docs mappings o.tree)
      fun _ s' t => ∃ o', o'.tree = t ∧ o'.item = o.item ∧
        Owned.Update P w.store [o] s' [o'] := by
  have hguest : o.isGuest = false := by cases ho <;> rfl
  unfold applyRecord filled
  refine .store ?_
  rw [Owned.isObject_item h hguest]
  cases hobject : o.tree.isObject with
  | false => exact .pure ⟨o,rfl,rfl,.refl h⟩
  | true =>
    cases ho with
    | leaf a =>
      rw [Owned.tree] at hobject
      cases hobject
    | list items =>
      rw [Owned.tree] at hobject
      cases hobject
    | @object id es entries =>
      have hopen : ∀ m ∈ mappings, Open m (.object id es) :=
        fun _ _ path _ => (Owned.GuestFree.object entries).clear path
      refine Work.EndsLike.map ((mapM_applyOne_endsLike hd hn h ha hopen).mono ?_)
      rintro - s' t - ⟨es',htree,hupdate⟩
      exact ⟨.object id es',htree,rfl,hupdate⟩

theorem mapM_applyRecord_endsLike (hd : LibraryTells w.store P functions docs) (hn : NoLookup docs)
    (ha : NoneWritesBelow docs mappings) (h : Owned.Held P w.store os) (ho : ∀ o ∈ os, o.GuestFree) :
    Work.EndsLike ((os.map Owned.item).mapM (applyRecord attempts functions mappings)) w
      ((os.map Owned.tree).mapM (filled docs mappings)) fun _ s' ts => ∃ os',
        os'.map Owned.tree = ts ∧ os'.map Owned.item = os.map Owned.item ∧
          Owned.Update P w.store os s' os' := by
  induction os generalizing w with
  | nil => exact .pure ⟨[],rfl,rfl,.refl h⟩
  | cons o rest ih =>
    obtain ⟨hplain,hrest⟩ := List.forall_mem_cons.1 ho
    have hone : Owned.Held P w.store [o] := (show Owned.Held P w.store ([o] ++ rest) from h).left
    rw [List.map_cons,List.map_cons,List.mapM_cons,List.mapM_cons]
    refine (applyRecord_endsLike hd hn ha hone hplain).bind fun count s' t _ hfirst => ?_
    obtain ⟨o',rfl,hitem,hupdate⟩ := hfirst
    have hbehind := ih (w := { w with store := s' }) (hd.update hone hupdate) (hupdate.rest h) hrest
    refine hbehind.bind fun counts s'' ts _ hothers => .pure ?_
    obtain ⟨os',rfl,hitems,hupdate'⟩ := hothers
    exact ⟨o' :: os',rfl,by rw [List.map_cons,hitem,hitems],.cons h hupdate hupdate'⟩

/-- Plants documents and a payload, applies mappings to it, and reads back what has become of the
payload and of the documents. -/
def fillPayload (attempts : Int) (docs : Documents) (mappings : List Value) (payload : Value) :
    Work (Value × Documents) := do
  let functions ← docs.mapM fun d => do return (d.1, ← Work.plant d.2)
  let p ← Work.plant payload
  let _ ← applyAll attempts functions mappings p
  let kept ← functions.mapM fun f => do return (f.1, ← Work.read f.2)
  return (← Work.read p, kept)

theorem plant_docs (docs : Documents) (w : World) : ∃ functions s' os,
    (docs.mapM fun d => do return (d.1, ← Work.plant d.2) : Work Library).exec w =
      (.ok functions,{ w with store := s' }) ∧ w.store.Grows s' ∧
      Owned.Planted (fun _ => False) w.store s' os ∧
      LibraryTells s' (· ∈ os.flatMap Owned.ids) functions docs := by
  have none (s : Store) : s.Region fun _ => False := ⟨nofun,nofun⟩
  induction docs generalizing w with
  | nil => exact ⟨[],w.store,[],rfl,refl_of Grows _,.nil (none _),.nil⟩
  | cons d docs ih =>
    have hg := plant_grows w.store d.2
    obtain ⟨o,hitem,htree,hfirst⟩ := Owned.planted w.store (none _) d.2
    obtain ⟨functions,s',os,hexec,hgrows,hrest,hshelved⟩ :=
      ih { w with store := (w.store.plant d.2).1 }
    have htells := (hfirst.tells List.mem_cons_self).of_agrees hfirst.region
      (hfirst.region.agrees hgrows)
    rw [hitem,htree] at htells
    refine ⟨(d.1,(w.store.plant d.2).2) :: functions,s',[o] ++ os,?_,trans_of Grows hg hgrows,
      hfirst.append hg hgrows hrest,.cons ⟨rfl,?_⟩ ?_⟩
    · have hone : (do return (d.1,← Work.plant d.2) : Work (Scalar × Item)).exec w =
          (.ok (d.1,(w.store.plant d.2).2),{ w with store := (w.store.plant d.2).1 }) := rfl
      rw [List.mapM_cons,exec_bind_ok hone,exec_bind_ok hexec]
      rfl
    · refine htells.mono fun id hid => ?_
      rw [List.flatMap_append]
      exact List.mem_append_left _ hid
    · refine hshelved.imp fun f d hf => ⟨hf.1,hf.2.mono fun id hid => ?_⟩
      rw [List.flatMap_append]
      exact List.mem_append_right _ hid

theorem read_exec {w : World} {i : Item} {v : Value} (h : w.store.Tells i v) :
    (Work.read i).exec w = (.ok v,w) := by
  have hr : (Work.read i).exec w = (w.store.read i,w) := rfl
  rw [hr,h.read]

theorem read_docs (h : LibraryTells w.store P functions docs) :
    (functions.mapM fun f => do return (f.1, ← Work.read f.2) : Work Documents).exec w =
      (.ok docs,w) := by
  induction h with
  | nil => rfl
  | @cons f d _ _ hf _ ih =>
    have hread := read_exec hf.2.2
    have hfirst : (do return (f.1,← Work.read f.2) : Work (Scalar × Value)).exec w =
        (.ok d,w) := by
      rw [exec_bind_ok hread,hf.1]
      rfl
    rw [List.mapM_cons,exec_bind_ok hfirst,exec_bind_ok ih]
    rfl

theorem planted_orders {o : Owned} {fields : Entries Value} {orders : List Value} (ho : o.GuestFree)
    (ht : o.tree = .object fields) (horders : Entries.get? fields "orders" = some (.list orders)) :
    ∃ pid fs lid os, o = .object pid fs ∧ (fs.map fun e => (e.1,e.2.tree)) = fields ∧
      Entries.get? fs "orders" = some (.list lid os) ∧ os.map Owned.tree = orders ∧
      ∀ x ∈ os, x.GuestFree := by
  cases ho with
  | leaf a =>
    rw [Owned.tree] at ht
    cases ht
  | list items =>
    rw [Owned.tree] at ht
    cases ht
  | @object pid fs entries =>
    rw [Owned.tree] at ht
    cases ht
    rw [Entries.get?_map,Option.map_eq_some_iff] at horders
    obtain ⟨x,hx,htree⟩ := horders
    cases entries x (List.mem_map_of_mem (Entries.mem_of_get? hx)) with
    | leaf a =>
      rw [Owned.tree] at htree
      cases htree
    | @list lid os items =>
      rw [Owned.tree] at htree
      cases htree
      exact ⟨pid,fs,lid,os,rfl,rfl,hx,rfl,items⟩
    | object entries =>
      rw [Owned.tree] at htree
      cases htree

theorem field_object (h : Owned.Held P s [.object id es]) (k : String) :
    s.field (.cell id) k = (((Entries.get? es k).map Owned.item).getD .null) := by
  have hlayer : s.view.layer (.cell id) = _ := Owned.layer_object h
  rw [Store.field,View.field,View.child?,hlayer]
  simp only [Entries.get?_map]
  rfl

theorem records_orders {lid : Nat} (h : Owned.Held P s [.object id es])
    (horders : Entries.get? es "orders" = some (.list lid os)) :
    records s (.cell id) = os.map Owned.item := by
  obtain ⟨hcell,-⟩ := Owned.held_list.1 (h.entry horders)
  rw [records,field_object h,horders]
  simp only [Option.map_some,Option.getD_some,Owned.item,layer,hcell,Cell.layer]

theorem fillPayload_endsLike (attempts : Int) (w : World) (hn : NoLookup docs)
    (ha : NoneWritesBelow docs mappings) {fields : Entries Value} {orders : List Value}
    (horders : Entries.get? fields "orders" = some (.list orders)) :
    Work.EndsLike (fillPayload attempts docs mappings (.object fields)) w
      (orders.mapM (filled docs mappings)) fun r _ results =>
        r = (.object (fields.put "orders" (.list results)),docs) := by
  obtain ⟨functions,s₁,ds,hplant,-,hdocs,hshelved⟩ := plant_docs docs w
  refine .behind hplant ?_
  obtain ⟨o,hitem,htree,hplanted⟩ := Owned.planted s₁ hdocs.region (.object fields)
  have hg := plant_grows s₁ (.object fields)
  have hwhole : (Work.plant (.object fields)).exec { w with store := s₁ } =
      (.ok (s₁.plant (.object fields)).2,{ w with store := (s₁.plant (.object fields)).1 }) := rfl
  refine .behind hwhole ?_
  rw [← hitem]
  revert hplanted hg
  generalize (s₁.plant (.object fields)).1 = s₂
  intro hplanted hg
  obtain ⟨pid,fs,lid,os,rfl,rfl,hget,rfl,hplain⟩ :=
    planted_orders (hplanted.plain o List.mem_cons_self) htree horders
  -- The orders stand below the payload, and the functions in front of both.
  have hpayload := hplanted.held
  have hlist := hpayload.entry hget
  obtain ⟨-,-,-,hos⟩ := Owned.held_list.1 hlist
  have hd : LibraryTells s₂ (· ∈ ds.flatMap Owned.ids) functions docs :=
    hshelved.of_agrees hdocs.region (hdocs.region.agrees hg)
  have hrecords := records_orders hpayload hget
  have hall : Work.EndsLike ((os.map Owned.item).mapM (applyRecord attempts functions mappings))
      { w with store := s₂ } ((os.map Owned.tree).mapM (filled docs mappings)) fun _ s' ts =>
        ∃ os', os'.map Owned.tree = ts ∧ os'.map Owned.item = os.map Owned.item ∧
          Owned.Update (· ∈ ds.flatMap Owned.ids) s₂ os s' os' :=
    mapM_applyRecord_endsLike hd hn ha hos hplain
  have hfill : Work.EndsLike (applyAll attempts functions mappings (.cell pid)) { w with store := s₂ }
      ((os.map Owned.tree).mapM (filled docs mappings)) fun _ s' ts => ∃ os',
        os'.map Owned.tree = ts ∧ os'.map Owned.item = os.map Owned.item ∧
          Owned.Update (· ∈ ds.flatMap Owned.ids) s₂ os s' os' := by
    unfold applyAll
    refine .store ?_
    rw [hrecords]
    exact .map hall
  rw [← bind_pure ((os.map Owned.tree).mapM (filled docs mappings))]
  refine hfill.bind fun _ s' ts _ hfilled => ?_
  obtain ⟨os',rfl,hitems,hupdate⟩ := hfilled
  have hread := (Owned.Update.entry hpayload hget (.list hlist hupdate hitems) rfl).held.tells
    List.mem_cons_self
  rw [Owned.tree_put,Owned.tree] at hread
  refine .behind (read_docs (w := { w with store := s' }) (hd.update hos hupdate)) ?_
  exact .behind (read_exec (w := { w with store := s' }) hread) (.pure rfl)

/-- Every order is filled as it is when it comes alone: what becomes of it depends neither on the
other orders nor on its place among them, and the documents of the functions stay as they are. -/
theorem fillPayload_alone {attempts : Int} {w w' : World} (hn : NoLookup docs)
    (ha : NoneWritesBelow docs mappings) {fields : Entries Value} {orders : List Value}
    (horders : Entries.get? fields "orders" = some (.list orders)) {whole : Value}
    {kept : Documents}
    (h : (fillPayload attempts docs mappings (.object fields)).exec w = (.ok (whole,kept),w')) :
    kept = docs ∧ ∃ results, whole = .object (fields.put "orders" (.list results)) ∧
      List.Forall₂ (fun order result => ∀ v, ∃ v',
        (fillPayload attempts docs mappings (.object [("orders",.list [order])])).exec v =
          (.ok (.object [("orders",.list [result])],docs),v')) orders results := by
  have hends := fillPayload_endsLike attempts w hn ha horders
  cases hfilled : orders.mapM (filled docs mappings) with
  | error f =>
    rw [hfilled] at hends
    have hfault : ((fillPayload attempts docs mappings (.object fields)).exec w).1 = .error f :=
      hends
    rw [h] at hfault
    cases hfault
  | ok results =>
    rw [hfilled] at hends
    obtain ⟨r,s',hexec,hr⟩ := hends
    rw [h] at hexec
    cases hexec
    cases hr
    refine ⟨rfl,results,rfl,(Fault.forall₂_of_mapM hfilled).imp fun order result horder v => ?_⟩
    have horders : Entries.get? [("orders",Value.list [order])] "orders" =
        some (.list [order]) := rfl
    have halone := fillPayload_endsLike attempts v hn ha horders
    have hone : [order].mapM (filled docs mappings) = .ok [result] := by
      rw [List.mapM_cons,horder]
      rfl
    rw [hone] at halone
    obtain ⟨r,s',hexec,rfl⟩ := halone
    exact ⟨_,hexec⟩

def boxed : Documents :=
  [(.int 1,.object [("type",.text "conditional"),("defaultValue",.object [("k",.int 1)])]),
    (.int 2,.object [("type",.text "template"),("template",.text "\x7b\x7bn\x7d\x7d")])]

def boxedBeside : List Value :=
  [.object [("fieldName",.text "x"),("functionId",.int 1)],
    .object [("fieldName",.text "y"),("functionId",.int 2)]]

def boxedOrders : List Value := [.object [("n",.text "A")],.object [("n",.text "B")]]

def boxedResults : List Value :=
  [.object [("n",.text "A"),("x",.object [("k",.int 1)]),("y",.text "A")],
    .object [("n",.text "B"),("x",.object [("k",.int 1)]),("y",.text "B")]]

theorem boxed_noLookup : NoLookup boxed := by
  have named (kind : String) (hk : kind ≠ lookupName) :
      (.ok (some kind) : Except Fault (Option String)) ≠ .ok (some lookupName) :=
    fun h => hk (Option.some.inj (Except.ok.inj h))
  refine List.forall_mem_cons.2 ⟨?_,List.forall_mem_singleton.2 ?_⟩
  · exact named "conditional" (by decide)
  · exact named "template" (by decide)

theorem boxed_apart : NoneWritesBelow boxed boxedBeside := by
  refine List.pairwise_pair.2 ?_
  rintro - ⟨path,further,hpath,hfurther,next,rest,hbeneath⟩
  have hpath : some ["x"] = some path := hpath
  have hfurther : some ["y"] = some further := hfurther
  cases hpath
  cases hfurther
  simp at hbeneath

theorem boxed_filled : boxedOrders.mapM (filled boxed boxedBeside) = .ok boxedResults := by
  rfl

theorem list_of_put {fields : Entries Value} {k : String} {xs ys : List Value}
    (h : Value.object (fields.put k (.list xs)) = .object (fields.put k (.list ys))) :
    xs = ys := by
  have hget := congrArg (Entries.get? · k) (Value.object.inj h)
  simp only [Entries.get?_put_self,Option.some.injEq,Value.list.injEq] at hget
  exact hget

theorem fillPayload_alone_boxed : ∃ w',
    (fillPayload 3 boxed boxedBeside (.object [("orders",.list boxedOrders)])).exec {} =
      (.ok (.object (Entries.put [("orders",.list boxedOrders)] "orders" (.list boxedResults)),
        boxed),w') ∧
    List.Forall₂ (fun order result => ∀ v, ∃ v',
      (fillPayload 3 boxed boxedBeside (.object [("orders",.list [order])])).exec v =
        (.ok (.object [("orders",.list [result])],boxed),v')) boxedOrders boxedResults := by
  have horders : Entries.get? [("orders",Value.list boxedOrders)] "orders" =
      some (.list boxedOrders) := rfl
  have hends := fillPayload_endsLike 3 {} boxed_noLookup boxed_apart horders
  rw [boxed_filled] at hends
  obtain ⟨r,s',hexec,rfl⟩ := hends
  obtain ⟨-,results,hresults,hall⟩ :=
    fillPayload_alone boxed_noLookup boxed_apart horders hexec
  exact ⟨_,hexec,list_of_put hresults ▸ hall⟩

end FieldFunction

end StepGraph
