import Mathlib
import StepGraph.Proofs.Overlay

/-!
Which layer gives an entry of the first context, and when there is a first context at all. An entry
is that of the last layer that has one of its name. What earlier groups of a session carry over
stands under names that tell the order of the group and the name of the field, so no two fields meet
under one name.
-/
namespace StepGraph

open Attempt Work

namespace Seed

def groupName (order : Int) (name : String) : String := "group" ++ toString order ++ "_" ++ name

theorem underscore_not_mem_toString (i : Int) : '_' ∉ (toString i).toList := by
  cases i with
  | ofNat n =>
    change '_' ∉ (Nat.repr n).toList
    rw [Nat.toList_repr]
    exact Nat.underscore_not_in_toDigits
  | negSucc n =>
    change '_' ∉ ("-" ++ Nat.repr n.succ).toList
    rw [String.toList_append,Nat.toList_repr,List.mem_append,not_or]
    exact ⟨by decide,Nat.underscore_not_in_toDigits⟩

/-- The order ends at the first underscore, so a name tells both. -/
theorem groupName_inj {order order' : Int} {name name' : String}
    (h : groupName order name = groupName order' name') : order = order' ∧ name = name' := by
  have hlist := congrArg String.toList h
  simp only [groupName,String.toList_append,List.append_assoc,List.append_cancel_left_eq] at hlist
  have hfront (i : Int) (rest : List Char) :
      ((toString i).toList ++ ("_".toList ++ rest)).takeWhile (· != '_') = (toString i).toList := by
    rw [List.takeWhile_append_of_pos fun c hc => ?_]
    · simp
    · simpa using ne_of_mem_of_not_mem hc (underscore_not_mem_toString i)
  have horder : (toString order).toList = (toString order').toList := by
    rw [← hfront order name.toList,hlist,hfront]
  rw [horder,List.append_cancel_left_eq,List.append_cancel_left_eq] at hlist
  exact ⟨Int.repr_injective (String.toList_inj.1 horder),String.toList_inj.1 hlist⟩

/-- The fields of a group under the names under which they are carried over. -/
def carriedFields (g : GroupData) : Entries Value :=
  g.fields.entries.map fun e => (groupName g.order e.1,e.2)

def IsRecord (v : Value) : Prop := v.truthy = true → ∃ es, v = .object es

theorem groupEntries_ok {g : GroupData} (h : IsRecord g.fields) :
    groupEntries g = .ok (carriedFields g) := by
  unfold groupEntries carriedFields
  split
  · rename_i ht
    obtain ⟨es,hes⟩ := h ht
    rw [hes]
    rfl
  · rename_i ht
    cases hv : g.fields with
    | object es =>
      rw [hv] at ht
      cases es with
      | nil => rfl
      | cons e es => exact absurd rfl ht
    | _ => rfl

theorem groupEntries_fails {g : GroupData} (h : ¬IsRecord g.fields) :
    groupEntries g = .error .noSuchMember := by
  unfold IsRecord at h
  rw [Classical.not_imp] at h
  unfold groupEntries
  rw [if_pos h.1]
  split
  · rename_i es hes
    exact absurd ⟨es,hes⟩ h.2
  · rfl

theorem last?_carriedFields {g : GroupData} {k : String} {x : Value} :
    Entries.last? (carriedFields g) k = some x ↔
      ∃ name, k = groupName g.order name ∧ Entries.last? g.fields.entries name = some x :=
  Entries.last?_rename_eq_some fun _ _ h => (groupName_inj h).2

/-- The session and the order of a request for which earlier groups count. -/
def asks? (r : Request) : Option (String × Int) :=
  match given r.session, r.groupOrder with
  | some session, some order => if order ≤ 1 then none else some (session,order)
  | _, _ => none

def carriedBefore (session : String) (order : Int) (rows : List GroupData) : Entries Value :=
  ((earlierGroups session order rows).map carriedFields).foldl Entries.merge []

theorem mem_earlierGroups {session : String} {order : Int} {rows : List GroupData} {g : GroupData} :
    g ∈ earlierGroups session order rows ↔ g ∈ rows ∧ g.session = session ∧ g.order < order := by
  simp [earlierGroups]

def OneEach (session : String) (rows : List GroupData) : Prop :=
  rows.Pairwise fun g g' => g.session = session → g'.session = session → g.order ≠ g'.order

theorem carriedFields_apart {session : String} {rows : List GroupData} (h : OneEach session rows)
    (order : Int) (k : String) :
    ((earlierGroups session order rows).map carriedFields).Pairwise fun es es' =>
      Entries.last? es k = none ∨ Entries.last? es' k = none := by
  have hapart : (earlierGroups session order rows).Pairwise fun g g' =>
      g.session = session → g'.session = session → g.order ≠ g'.order := by
    refine ((List.mergeSort_perm _ _).pairwise_iff fun hne hs hs' => ?_).2 (h.filter _)
    exact (hne hs' hs).symm
  refine List.pairwise_map.2 (hapart.imp_of_mem fun hg hg' hne => ?_)
  obtain ⟨-,hs,-⟩ := mem_earlierGroups.1 hg
  obtain ⟨-,hs',-⟩ := mem_earlierGroups.1 hg'
  by_contra! hboth
  obtain ⟨x,hx⟩ := Option.ne_none_iff_exists'.1 hboth.1
  obtain ⟨x',hx'⟩ := Option.ne_none_iff_exists'.1 hboth.2
  obtain ⟨name,rfl,-⟩ := last?_carriedFields.1 hx
  obtain ⟨name',hname,-⟩ := last?_carriedFields.1 hx'
  exact hne hs hs' (groupName_inj hname).1

/-- Where at most one of several options is there, any search finds it. -/
theorem findSome?_eq_some_of_apart {α β : Type} {f : α → Option β} {xs : List α} {y : β}
    (h : xs.Pairwise fun a b => f a = none ∨ f b = none) :
    xs.findSome? f = some y ↔ ∃ x ∈ xs, f x = some y := by
  refine ⟨List.exists_of_findSome?_eq_some,?_⟩
  rintro ⟨x,hx,hy⟩
  induction xs with
  | nil => cases hx
  | cons x' xs ih =>
    obtain ⟨hfirst,hrest⟩ := List.pairwise_cons.1 h
    rcases List.mem_cons.1 hx with rfl | hx
    · rw [List.findSome?_cons_of_isSome (by simp [hy]),hy]
    · have hnone : f x' = none := (hfirst x hx).resolve_right (by simp [hy])
      rw [List.findSome?_cons_of_isNone (by simp [hnone])]
      exact ih hrest hx

/-- Where an order has one record, a name gives the field of that record which it names. -/
theorem last?_carriedBefore {session : String} {order : Int} {rows : List GroupData}
    (h : OneEach session rows) (k : String) (x : Value) :
    Entries.last? (carriedBefore session order rows) k = some x ↔
      ∃ g ∈ rows, g.session = session ∧ g.order < order ∧
        ∃ name, k = groupName g.order name ∧ Entries.last? g.fields.entries name = some x := by
  have hapart := List.pairwise_reverse.2 ((carriedFields_apart h order k).imp Or.symm)
  have hnone : (Entries.keys ([] : Entries Value)).Nodup := .nil
  unfold carriedBefore
  rw [Entries.last?_eq (Entries.nodup_layers _ hnone),Entries.get?_layers]
  rw [show Entries.get? ([] : Entries Value) k = none from rfl,Option.or_none]
  rw [findSome?_eq_some_of_apart hapart]
  constructor
  · rintro ⟨es,hes,hx⟩
    obtain ⟨g,hg,rfl⟩ := List.mem_map.1 (List.mem_reverse.1 hes)
    obtain ⟨hrow,hsession,horder⟩ := mem_earlierGroups.1 hg
    exact ⟨g,hrow,hsession,horder,last?_carriedFields.1 hx⟩
  · rintro ⟨g,hrow,hsession,horder,hx⟩
    have hg := mem_earlierGroups.2 ⟨hrow,hsession,horder⟩
    exact ⟨_,List.mem_reverse.2 (List.mem_map_of_mem hg),last?_carriedFields.2 hx⟩

/-- Earlier groups can be asked: their order can be held, and each holds a record. -/
structure Askable (session : String) (order : Int) (rows : List GroupData) : Prop where
  held : fitsRecord order = true
  records : ∀ g ∈ rows, g.session = session → g.order < order → IsRecord g.fields

theorem mapM_ok_of_forall {α β : Type} {f : α → Except Fault β} {g : α → β} {xs : List α}
    (h : ∀ x ∈ xs, f x = .ok (g x)) : xs.mapM f = .ok (xs.map g) := by
  induction xs with
  | nil => rfl
  | cons x xs ih =>
    obtain ⟨hx,hxs⟩ := List.forall_mem_cons.1 h
    rw [List.mapM_cons,hx,ih hxs]
    rfl

theorem mapM_error_of_mem {α β : Type} {f : α → Except Fault β} {e : Fault} {xs : List α} {x : α}
    (hf : ∀ x ∈ xs, (∃ y, f x = .ok y) ∨ f x = .error e) (hx : x ∈ xs) (he : f x = .error e) :
    xs.mapM f = .error e := by
  induction xs with
  | nil => cases hx
  | cons x' xs ih =>
    obtain ⟨hfirst,hrest⟩ := List.forall_mem_cons.1 hf
    rw [List.mapM_cons]
    rcases hfirst with ⟨y,hy⟩ | hy
    · have hx : x ∈ xs := (List.mem_cons.1 hx).resolve_left fun h => by
        rw [← h,he] at hy
        cases hy
      rw [hy,ih hrest hx]
      rfl
    · rw [hy]
      rfl

variable {session : String} {order : Int} {w w' : World}

theorem groupFields_missing (hp : w.db.groups.present = false) :
    (groupFields session order).exec w = (.error (.misuse .missingTable),w) := by
  have hrows : w.db.groups.all = .error (.misuse .missingTable) := by
    rw [Table.all,hp]
    rfl
  unfold groupFields
  rw [exec_database,hrows]
  rfl

theorem groupFields_ok (hp : w.db.groups.present = true)
    (h : Askable session order w.db.groups.rows) :
    (groupFields session order).exec w =
      (.ok (carriedBefore session order w.db.groups.rows),w) := by
  have hrows : w.db.groups.all = .ok w.db.groups.rows := by rw [Table.all,if_pos hp]
  have hheld : held order = .ok order := if_pos h.held
  have hlayers : (earlierGroups session order w.db.groups.rows).mapM groupEntries =
      .ok ((earlierGroups session order w.db.groups.rows).map carriedFields) := by
    refine mapM_ok_of_forall fun g hg => groupEntries_ok ?_
    obtain ⟨hrow,hsession,horder⟩ := mem_earlierGroups.1 hg
    exact h.records g hrow hsession horder
  unfold groupFields
  rw [exec_database,hrows,exec_bind_of,hheld,exec_bind_of,hlayers]
  rfl

theorem groupFields_fails (hp : w.db.groups.present = true)
    (h : ¬Askable session order w.db.groups.rows) :
    ∃ f : Fault, (groupFields session order).exec w = (.error f,w) ∧
      f.isRecordTrouble = false := by
  have hrows : w.db.groups.all = .ok w.db.groups.rows := by rw [Table.all,if_pos hp]
  unfold groupFields
  rw [exec_database,hrows,exec_bind_of]
  cases hfits : fitsRecord order with
  | false =>
    have hheld : held order = .error (.misuse .tooLarge) := by
      rw [held,hfits]
      rfl
    rw [hheld]
    exact ⟨_,rfl,rfl⟩
  | true =>
    have hheld : held order = .ok order := if_pos hfits
    obtain ⟨g,hg,hbad⟩ : ∃ g ∈ earlierGroups session order w.db.groups.rows,
        ¬IsRecord g.fields := by
      by_contra! hall
      exact h ⟨hfits,fun g hrow hsession horder =>
        hall g (mem_earlierGroups.2 ⟨hrow,hsession,horder⟩)⟩
    have hlayers : (earlierGroups session order w.db.groups.rows).mapM groupEntries =
        .error .noSuchMember := by
      refine mapM_error_of_mem (fun g _ => ?_) hg (groupEntries_fails hbad)
      by_cases hrecord : IsRecord g.fields
      · exact .inl ⟨_,groupEntries_ok hrecord⟩
      · exact .inr (groupEntries_fails hrecord)
    rw [hheld,exec_bind_of,hlayers]
    exact ⟨_,rfl,rfl⟩

def carried (db : Database) (r : Request) : Entries Value :=
  match asks? r with
  | some (session,order) =>
    if db.groups.present then carriedBefore session order db.groups.rows else []
  | none => []

theorem groupLayer_eq (r : Request) :
    groupLayer r =
      match asks? r with
      | some (session,order) => do
        match ← Work.attempt (groupFields session order) with
        | .ok es => plantFields es
        | .error f => if f.isRecordTrouble then return [] else throw f
      | none => return [] := by
  unfold groupLayer asks?
  cases given r.session with
  | none => rfl
  | some session =>
    cases r.groupOrder with
    | none => rfl
    | some order =>
      simp only
      split <;> rfl

def GroupsAskable (db : Database) (r : Request) : Prop :=
  ∀ session order, asks? r = some (session,order) → db.groups.present = true →
    Askable session order db.groups.rows

theorem groupLayer_ok {r : Request} (h : GroupsAskable w.db r) :
    ∃ is s, (groupLayer r).exec w = (.ok is,{ w with store := s }) ∧ w.store.Grows s ∧
      s.SpellsFields s.cells.size (carried w.db r) is := by
  rw [groupLayer_eq]
  unfold carried
  cases ha : asks? r with
  | none => exact ⟨[],w.store,rfl,refl_of Store.Grows _,.nil _⟩
  | some asked =>
    obtain ⟨session,order⟩ := asked
    simp only
    cases hp : w.db.groups.present with
    | false =>
      rw [exec_bind_ok (attempt_of_exec (groupFields_missing hp))]
      exact ⟨[],w.store,rfl,refl_of Store.Grows _,.nil _⟩
    | true =>
      rw [exec_bind_ok (attempt_of_exec (groupFields_ok hp (h session order ha hp)))]
      exact plantFields_exec _ w

theorem groupLayer_fails {r : Request} (h : ¬GroupsAskable w.db r) :
    ∃ f, (groupLayer r).exec w = (.error f,w) := by
  unfold GroupsAskable at h
  push Not at h
  obtain ⟨session,order,ha,hp,hbad⟩ := h
  obtain ⟨f,hf,htrouble⟩ := groupFields_fails hp hbad
  rw [groupLayer_eq,ha]
  simp only
  rw [exec_bind_ok (attempt_of_exec hf)]
  simp only [htrouble]
  exact ⟨f,rfl⟩

def workflowTree (c : Source) : Entries Value :=
  match c.mode with
  | .transformation => []
  | .extraction => ((workflowFields c.request.workflowData).toOption).getD []

/-- The reading of a text is not cut short, neither for its depth nor for the length of a number. -/
def Uncut (s : String) : Prop :=
  ∀ f, Json.parse s = .error f → f ≠ .tooDeep ∧ ∀ n, f ≠ .tooManyDigits n

theorem documentOr_ok_iff {default : Value} {s : String} :
    (∃ v, Payload.documentOr default s = .ok v) ↔ Uncut s := by
  unfold Payload.documentOr Uncut
  cases Json.parse s with
  | ok v => simp
  | error f => cases f <;> simp

def WorkflowReadable (c : Source) : Prop :=
  c.mode = .extraction → ∀ s, c.request.workflowData = .text s → s ≠ "" → Uncut s

theorem workflowFields_ok_iff {raw : Value} :
    (∃ es, workflowFields raw = .ok es) ↔ ∀ s, raw = .text s → s ≠ "" → Uncut s := by
  unfold workflowFields
  split
  · simp
  · rename_i s
    by_cases hs : s = ""
    · simp [hs]
    · have hempty : ¬s.isEmpty = true := by simpa using hs
      rw [if_neg hempty]
      refine ⟨fun ⟨es,hes⟩ s' hs' _ => ?_,fun h => ?_⟩
      · cases hs'
        refine documentOr_ok_iff.1 (?_ : ∃ v, Payload.documentOr .null s = .ok v)
        cases hv : Payload.documentOr .null s with
        | ok v => exact ⟨v,rfl⟩
        | error f =>
          rw [hv] at hes
          cases hes
      · obtain ⟨v,hv⟩ : ∃ v, Payload.documentOr .null s = .ok v := documentOr_ok_iff.2 (h s rfl hs)
        exact ⟨v.entries,by rw [hv]; rfl⟩
  · simp_all

theorem modeLayers_ok {c : Source} (h : WorkflowReadable c) (w : World) :
    ∃ layers is s, (modeLayers c).exec w = (.ok layers,{ w with store := s }) ∧
      w.store.Grows s ∧ s.SpellsFields s.cells.size (workflowTree c) is ∧
      ∀ es, layers.foldl Entries.merge es = [requestFields c w.now,is].foldl Entries.merge es := by
  unfold modeLayers workflowTree requestFields
  unfold WorkflowReadable at h
  cases hmode : c.mode with
  | transformation => exact ⟨_,[],w.store,rfl,refl_of Store.Grows _,.nil _,fun es => rfl⟩
  | extraction =>
    obtain ⟨fields,hfields⟩ := workflowFields_ok_iff.2 (h hmode)
    obtain ⟨is,s,hw,hg,hs⟩ := plantFields_exec fields w
    simp only [hfields]
    rw [exec_bind_of,exec_bind_ok (exec_get w),exec_bind_ok hw]
    exact ⟨_,is,s,rfl,hg,hs,fun es => rfl⟩

theorem modeLayers_fails {c : Source} (h : ¬WorkflowReadable c) :
    ∃ f, (modeLayers c).exec w = (.error f,w) := by
  unfold WorkflowReadable at h
  rw [Classical.not_imp,← workflowFields_ok_iff] at h
  obtain ⟨hmode,hnone⟩ := h
  unfold modeLayers
  rw [hmode]
  simp only
  cases hfields : workflowFields c.request.workflowData with
  | ok es => exact absurd ⟨es,hfields⟩ hnone
  | error f => exact ⟨f,rfl⟩

def payloadTree (c : Source) (payload : Value) : Entries Value :=
  if c.format == Payload.csvFormat then [] else payload.entries

def firstFields : Value → Entries Value
  | .list (x :: _) => x.entries
  | _ => []

def orderTree (c : Source) (payload : Value) : Entries Value :=
  if c.format == Payload.csvFormat then [] else firstFields (payload.field "orders")

theorem payloadLayers_spells {s : Store} {c : Source} {n : Nat} {v : Value}
    (h : s.Spells n v c.payload) : ∃ is js, s.SpellsFields n (payloadTree c v) is ∧
      s.SpellsFields n (orderTree c v) js ∧
      ∀ es, (payloadLayers s c).foldl Entries.merge es = [is,js].foldl Entries.merge es := by
  unfold payloadLayers payloadTree orderTree
  split
  · exact ⟨[],[],.nil n,.nil n,fun es => rfl⟩
  · refine ⟨_,_,h.entries,?_,fun es => rfl⟩
    have horders := h.field "orders"
    generalize s.field c.payload "orders" = i, v.field "orders" = orders at horders
    cases horders with
    | leaf n a => exact .nil n
    | list lt cell parts =>
      simp only [Store.layer,cell,Cell.layer]
      cases parts with
      | nil => exact .nil n
      | cons first _ => exact first.entries.mono (refl_of Store.Grows s) (Nat.le_of_lt lt)
    | object lt cell fields =>
      simp only [Store.layer,cell,Cell.layer]
      exact .nil n

def leafTree : Item → Value
  | .leaf a => .scalar a
  | .cell _ => .null

/-- The request's fields as trees, with those of the submitted data and of the payload. -/
def requestTree (c : Source) (submitted payload : Value) (now : Int) : Entries Value :=
  (requestFields c now).map fun e =>
    (e.1,if e.1 = Context.extractedKey then payload
      else if e.1 = originalKey then submitted else leafTree e.2)

theorem spellsFields_map {s : Store} {n : Nat} {f : String × Item → Value} {is : Entries Item}
    (h : ∀ e ∈ is, s.Spells n (f e) e.2) : s.SpellsFields n (is.map fun e => (e.1,f e)) is := by
  induction is with
  | nil => exact .nil n
  | cons e is ih =>
    obtain ⟨hfirst,hrest⟩ := List.forall_mem_cons.1 h
    exact .cons hfirst (ih hrest)

theorem textItem_spells {s : Store} {n : Nat} (o : Option String) :
    s.Spells n (leafTree (textItem o)) (textItem o) := by
  cases o <;> exact .leaf n _

theorem requestTree_spells {s : Store} {c : Source} {n : Nat} {u v : Value}
    (hu : s.Spells n u c.submitted) (hv : s.Spells n v c.payload) (now : Int) :
    s.SpellsFields n (requestTree c u v now) (requestFields c now) := by
  have text (t : String) : s.Spells n (leafTree (.text t)) (.text t) := .leaf n _
  refine spellsFields_map ?_
  unfold requestFields
  cases c.mode <;>
    simp [extractionFields,transformationFields,Context.extractedKey,originalKey,hu,hv,text,
      textItem_spells]

def fieldLayers (c : Source) (submitted payload : Value) (hasRecords : Bool) (w : World) :
    List (Entries Value) :=
  [requestTree c submitted payload w.now,workflowTree c,c.request.context.getD [],
    payloadTree c payload,orderTree c payload,if hasRecords then carried w.db c.request else []]

/-- What a first context needs: workflow data that can be read and groups that can be asked, where
these count. -/
structure Buildable (c : Source) (hasRecords : Bool) (w : World) : Prop where
  workflow : WorkflowReadable c
  groups : hasRecords = true → GroupsAskable w.db c.request

/-- How the first context was laid: the layers that were planted, and the store that the payload was
read from. -/
structure Laid (c : Source) (hasRecords : Bool) (w : World) (seed : Entries Item) (s : Store)
    (more context groups : Entries Item) (s₁ : Store) : Prop where
  ahead : w.store.Grows s₁
  behind : s₁.Grows s
  workflow : s.SpellsFields s.cells.size (workflowTree c) more
  given : s.SpellsFields s.cells.size (c.request.context.getD []) context
  carried : s.SpellsFields s.cells.size (if hasRecords then carried w.db c.request else []) groups
  eq : seed = ([requestFields c w.now,more,context] ++ payloadLayers s₁ c ++ [groups]).foldl
    Entries.merge []

theorem build_ok {c : Source} {hasRecords : Bool} (h : Buildable c hasRecords w) :
    ∃ seed s more context groups s₁, (build c hasRecords).exec w = (.ok seed,{ w with store := s }) ∧
      Laid c hasRecords w seed s more context groups s₁ := by
  obtain ⟨own,more,s₁,hown,hg₁,hmore,hfold⟩ := modeLayers_ok h.workflow w
  obtain ⟨context,s₂,hcontext,hg₂,hgiven⟩ :=
    plantFields_exec (c.request.context.getD []) { w with store := s₁ }
  -- the groups are asked last, behind the store that the payload's layers are read from
  have hgroups : ∃ groups s, (if hasRecords then groupLayer c.request else pure []).exec
      { w with store := s₂ } = (.ok groups,{ w with store := s }) ∧ s₂.Grows s ∧
      s.SpellsFields s.cells.size (if hasRecords then Seed.carried w.db c.request else [])
        groups := by
    cases hasRecords with
    | false => exact ⟨[],s₂,rfl,refl_of Store.Grows _,.nil _⟩
    | true => exact groupLayer_ok (w := { w with store := s₂ }) (h.groups rfl)
  obtain ⟨groups,s,hlast,hg₃,hcarried⟩ := hgroups
  have hg₂₃ := trans_of Store.Grows hg₂ hg₃
  refine ⟨(own ++ [context] ++ payloadLayers s₂ c ++ [groups]).foldl Entries.merge [],
    s,more,context,groups,s₂,?_,?_⟩
  · have hstore : Work.store.exec { w with store := s₂ } = (.ok s₂,{ w with store := s₂ }) := rfl
    unfold build layers
    rw [bind_assoc,exec_bind_ok hown,bind_assoc,exec_bind_ok hcontext,bind_assoc,
      exec_bind_ok hstore]
    cases hasRecords with
    | false =>
      cases hlast
      rfl
    | true =>
      change (groupLayer c.request).exec { w with store := s₂ } = _ at hlast
      simp only [if_true,bind_assoc]
      rw [exec_bind_ok hlast]
      rfl
  · constructor
    case ahead => exact trans_of Store.Grows hg₁ hg₂
    case behind => exact hg₃
    case workflow => exact hmore.mono hg₂₃ hg₂₃.size_le
    case given => exact hgiven.mono hg₃ hg₃.size_le
    case carried => exact hcarried
    case eq =>
      simp only [List.foldl_append,hfold]
      rfl

theorem build_fails {c : Source} {hasRecords : Bool} (h : ¬Buildable c hasRecords w) :
    ∃ f w', (build c hasRecords).exec w = (.error f,w') := by
  unfold build layers
  rw [bind_assoc]
  by_cases hworkflow : WorkflowReadable c
  · obtain ⟨rfl,hgroups⟩ : hasRecords = true ∧ ¬GroupsAskable w.db c.request := by
      by_contra! hall
      exact h ⟨hworkflow,hall⟩
    obtain ⟨own,more,s₁,hown,-⟩ := modeLayers_ok hworkflow w
    obtain ⟨context,s₂,hcontext,-⟩ :=
      plantFields_exec (c.request.context.getD []) { w with store := s₁ }
    have hstore : Work.store.exec { w with store := s₂ } = (.ok s₂,{ w with store := s₂ }) := rfl
    obtain ⟨f,hf⟩ := groupLayer_fails (w := { w with store := s₂ }) hgroups
    rw [exec_bind_ok hown,bind_assoc,exec_bind_ok hcontext,bind_assoc,exec_bind_ok hstore]
    simp only [if_true,bind_assoc]
    exact ⟨f,_,exec_bind_error hf _⟩
  · obtain ⟨f,hf⟩ := modeLayers_fails (w := w) hworkflow
    exact ⟨f,_,exec_bind_error hf _⟩

theorem findSome?_rel {α β γ δ : Type} {R : α → β → Prop} {S : γ → δ → Prop} {f : α → Option γ}
    {g : β → Option δ} (hf : ∀ x y, R x y → Option.Rel S (f x) (g y)) {xs : List α} {ys : List β}
    (h : List.Forall₂ R xs ys) : Option.Rel S (xs.findSome? f) (ys.findSome? g) := by
  induction h with
  | nil => exact .none
  | @cons x y xs ys hx _ ih =>
    have hrel := hf x y hx
    rw [List.findSome?_cons,List.findSome?_cons]
    generalize f x = a, g y = b at hrel
    cases hrel with
    | some hab => exact .some hab
    | none => exact ih

theorem last?_rel {s : Store} {n : Nat} {es : Entries Value} {is : Entries Item}
    (h : s.SpellsFields n es is) (k : String) :
    Option.Rel (fun i x => s.Spells n x i) (Entries.last? is k) (Entries.last? es k) := by
  induction es generalizing is with
  | nil =>
    cases h
    exact .none
  | cons e es ih =>
    cases h with
    | cons first rest =>
      have hrel := ih rest
      rw [Entries.last?_cons,Entries.last?_cons]
      generalize Entries.last? _ k = i, Entries.last? es k = x at hrel
      cases hrel with
      | some hx => exact .some hx
      | none =>
        simp only [Option.none_or]
        split
        · exact .some first
        · exact .none

/-- An entry of the first context is that of the last layer that has one of its name. -/
theorem Laid.gives {c : Source} {hasRecords : Bool} {seed more context groups : Entries Item}
    {s s₁ : Store} (h : Laid c hasRecords w seed s more context groups s₁) {n : Nat} {u v : Value}
    (hu : w.store.Spells n u c.submitted) (hv : w.store.Spells n v c.payload) (k : String) :
    Option.Rel (fun i x => s.read i = .ok x) (Entries.get? seed k)
      ((fieldLayers c u v hasRecords w).reverse.findSome? fun es => Entries.last? es k) := by
  have hg := trans_of Store.Grows h.ahead h.behind
  obtain ⟨payload,order,hpayload,horder,hfold⟩ := payloadLayers_spells (hv.grows h.ahead)
  have hrequest := requestTree_spells (hu.grows hg) (hv.grows hg) w.now
  have hlayers : List.Forall₂ (fun is es => ∃ n, s.SpellsFields n es is)
      [requestFields c w.now,more,context,payload,order,groups] (fieldLayers c u v hasRecords w) :=
    .cons ⟨_,hrequest⟩ <| .cons ⟨_,h.workflow⟩ <| .cons ⟨_,h.given⟩ <|
      .cons ⟨_,hpayload.mono h.behind (Nat.le_refl _)⟩ <|
      .cons ⟨_,horder.mono h.behind (Nat.le_refl _)⟩ <| .cons ⟨_,h.carried⟩ .nil
  have hseed : seed = [requestFields c w.now,more,context,payload,order,groups].foldl
      Entries.merge [] := by
    rw [h.eq]
    simp only [List.foldl_append,hfold]
    rfl
  rw [hseed,Entries.get?_layers,show Entries.get? ([] : Entries Item) k = none from rfl,
    Option.or_none]
  refine findSome?_rel (fun is es hs => ?_) (List.forall₂_reverse_iff.2 hlayers)
  obtain ⟨n,hs⟩ := hs
  have hrel := last?_rel hs k
  generalize Entries.last? is k = i, Entries.last? es k = x at hrel
  cases hrel with
  | some hx => exact .some hx.read
  | none => exact .none

theorem given_eq_some {o : Option String} {s : String} :
    given o = some s ↔ o = some s ∧ s ≠ "" := by
  simp [given,Option.filter_eq_some_iff]

theorem asks?_eq_some {r : Request} :
    asks? r = some (session,order) ↔
      r.session = some session ∧ session ≠ "" ∧ r.groupOrder = some order ∧ 1 < order := by
  unfold asks?
  constructor
  · intro h
    split at h
    · rename_i s o hs ho
      split at h
      · cases h
      · rename_i hlt
        cases h
        obtain ⟨hsession,hne⟩ := given_eq_some.1 hs
        exact ⟨hsession,hne,ho,Int.not_le.1 hlt⟩
    · cases h
  · rintro ⟨hsession,hne,horder,hlt⟩
    rw [given_eq_some.2 ⟨hsession,hne⟩,horder]
    exact if_neg (Int.not_le.2 hlt)

theorem last?_carried {db : Database} {r : Request}
    (h : ∀ session, r.session = some session → OneEach session db.groups.rows) (k : String)
    (x : Value) :
    Entries.last? (carried db r) k = some x ↔
      db.groups.present = true ∧ ∃ session order, r.session = some session ∧ session ≠ "" ∧
        r.groupOrder = some order ∧ 1 < order ∧ ∃ g ∈ db.groups.rows, g.session = session ∧
          g.order < order ∧ ∃ name, k = groupName g.order name ∧
            Entries.last? g.fields.entries name = some x := by
  constructor
  · intro hx
    unfold carried at hx
    split at hx
    · rename_i session order ha
      obtain ⟨hsession,hne,horder,hlt⟩ := asks?_eq_some.1 ha
      split at hx
      · rename_i hp
        exact ⟨hp,session,order,hsession,hne,horder,hlt,
          (last?_carriedBefore (h session hsession) k x).1 hx⟩
      · cases hx
    · cases hx
  · rintro ⟨hp,session,order,hsession,hne,horder,hlt,hx⟩
    unfold carried
    rw [asks?_eq_some.2 ⟨hsession,hne,horder,hlt⟩]
    simp only [hp,if_true]
    exact (last?_carriedBefore (h session hsession) k x).2 hx

theorem buildable_of_ok {c : Source} {hasRecords : Bool} {seed : Entries Item}
    (h : (build c hasRecords).exec w = (.ok seed,w')) : Buildable c hasRecords w := by
  by_contra hnot
  obtain ⟨f,w'',hfails⟩ := build_fails hnot
  cases h.symm.trans hfails

/-- There is a first context just where its workflow data can be read and its groups can be asked.
An entry of it is then that of the last layer that has one of its name; the groups of a session carry
their fields over, each under a name of its own, and what the layers were taken from is left. -/
theorem build_precedence (c : Source) (hasRecords : Bool) (w : World) {n : Nat} {u v : Value}
    (hu : w.store.Spells n u c.submitted) (hv : w.store.Spells n v c.payload) :
    ((∃ seed w', (build c hasRecords).exec w = (.ok seed,w')) ↔ Buildable c hasRecords w) ∧
    (∀ seed w', (build c hasRecords).exec w = (.ok seed,w') →
      w' = { w with store := w'.store } ∧ w.store.Grows w'.store ∧
      w'.store.read c.submitted = .ok u ∧ w'.store.read c.payload = .ok v ∧
      ∀ k, Option.Rel (fun i x => w'.store.read i = .ok x) (Entries.get? seed k)
        ((fieldLayers c u v hasRecords w).reverse.findSome? fun es => Entries.last? es k)) ∧
    ((∀ session, c.request.session = some session → OneEach session w.db.groups.rows) →
      ∀ k x, Entries.last? (carried w.db c.request) k = some x ↔
        w.db.groups.present = true ∧ ∃ session order, c.request.session = some session ∧
          session ≠ "" ∧ c.request.groupOrder = some order ∧ 1 < order ∧
          ∃ g ∈ w.db.groups.rows, g.session = session ∧ g.order < order ∧
            ∃ name, k = groupName g.order name ∧ Entries.last? g.fields.entries name = some x) ∧
    ∀ order order' name name', groupName order name = groupName order' name' →
      order = order' ∧ name = name' := by
  refine ⟨⟨fun ⟨seed,w',h⟩ => buildable_of_ok h,fun h => ?_⟩,fun seed w' h => ?_,
    fun h => last?_carried h,fun _ _ _ _ => groupName_inj⟩
  · obtain ⟨seed,s,-,-,-,-,hbuilt,-⟩ := build_ok h
    exact ⟨seed,_,hbuilt⟩
  · obtain ⟨seed',s,more,context,groups,s₁,hbuilt,hlaid⟩ := build_ok (buildable_of_ok h)
    cases h.symm.trans hbuilt
    have hg := trans_of Store.Grows hlaid.ahead hlaid.behind
    exact ⟨rfl,hg,(hu.grows hg).read,(hv.grows hg).read,hlaid.gives hu hv⟩

def overlaid : Source where
  request := { session := some "s", groupOrder := some 2, context := some [("a",.text "context")],
               workflowData := .object [("a",.text "workflow"),("b",.text "workflow")] }
  submitted := .cell 2
  payload := .cell 2
  format := "JSON"

def secondGroup : World where
  store := ⟨#[.object [("a",.text "order")],.list [.cell 0],
    .object [("a",.text "payload"),("orders",.cell 1)]]⟩
  db := { groups := { rows := [{ id := 1, session := "s", order := 1,
                                 fields := .object [("a",.text "group")] }] } }

def overlaidTree : Value :=
  .object [("a",.text "payload"),("orders",.list [.object [("a",.text "order")]])]

theorem build_precedence_overlaid :
    ∃ (seed : Entries Item) (w' : World),
      (build overlaid true).exec secondGroup = (.ok seed,w') ∧
      Option.Rel (fun i x => w'.store.read i = .ok x) (Entries.get? seed "a")
        (some (.text "order")) ∧
      Option.Rel (fun i x => w'.store.read i = .ok x) (Entries.get? seed "b")
        (some (.text "workflow")) ∧
      Option.Rel (fun i x => w'.store.read i = .ok x) (Entries.get? seed "group1_a")
        (some (.text "group")) ∧ Entries.get? seed "c" = none := by
  have hspells : secondGroup.store.Spells 3 overlaidTree (.cell 2) := by
    refine .object (by decide) rfl (.cons (.leaf _ _) (.cons ?_ (.nil _)))
    exact .list (by decide) rfl (.cons (.object (by decide) rfl (.cons (.leaf _ _) (.nil _)))
      (.nil _))
  have hbuildable : Buildable overlaid true secondGroup := by
    refine ⟨fun _ _ hs => (Value.noConfusion hs),fun _ session order hasks _ => ?_⟩
    obtain ⟨-,-,horder,-⟩ := asks?_eq_some.1 hasks
    cases horder
    exact ⟨by decide +kernel,by simp [secondGroup,IsRecord]⟩
  obtain ⟨hbuilds,hlaw,hcarried,-⟩ := build_precedence overlaid true secondGroup hspells hspells
  obtain ⟨seed,w',hbuilt⟩ := hbuilds.2 hbuildable
  obtain ⟨-,-,-,-,hget⟩ := hlaw seed w' hbuilt
  have hgroups : carried secondGroup.db overlaid.request = [("group1_a",.text "group")] := by
    have hasks : asks? overlaid.request = some ("s",2) := by decide +kernel
    have hname : groupName 1 "a" = "group1_a" := by decide +kernel
    have hearlier : earlierGroups "s" 2 secondGroup.db.groups.rows = secondGroup.db.groups.rows := by
      simp [earlierGroups,secondGroup]
    unfold carried
    rw [hasks]
    simp only [carriedBefore,hearlier]
    rw [← hname]
    rfl
  have hlayers (k : String) (x : Option Value)
      (h : ([requestTree overlaid overlaidTree overlaidTree secondGroup.now,workflowTree overlaid,
        overlaid.request.context.getD [],payloadTree overlaid overlaidTree,
        orderTree overlaid overlaidTree,[("group1_a",.text "group")]].reverse.findSome?
          fun es => Entries.last? es k) = x) :
      Option.Rel (fun i x => w'.store.read i = .ok x) (Entries.get? seed k) x := by
    have hrel := hget k
    unfold fieldLayers at hrel
    rw [if_pos rfl,hgroups,h] at hrel
    exact hrel
  refine ⟨seed,w',hbuilt,hlayers "a" _ rfl,hlayers "b" _ rfl,hlayers "group1_a" _ rfl,?_⟩
  have hnone := hlayers "c" none rfl
  generalize Entries.get? seed "c" = entry at hnone
  cases hnone
  rfl

end Seed

end StepGraph
