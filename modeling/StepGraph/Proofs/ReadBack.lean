import StepGraph.Proofs.Retrace

/-!
A value that is written at a path is read back at the same path: where the lookup retraces the write
from the root on or from a container that both come to, and no leaf has the whole path for its key.
-/
namespace StepGraph

namespace Store

variable {s s' : Store} {i j x : Item}

theorem isLeaf_cell (s : Store) (k : Nat) : s.view.isLeaf (.cell k) = false := by
  simp only [View.isLeaf,view,layer]
  cases s.cells[k]? with
  | none => rfl
  | some c => cases c <;> rfl

theorem isLeaf_eq (s s' : Store) (y : Item) : s'.view.isLeaf y = s.view.isLeaf y := by
  cases y with
  | leaf a => rfl
  | cell k => rw [isLeaf_cell,isLeaf_cell]

theorem wholeKey?_of_layer {cs : List Char} (h : s'.layer i = s.layer i) :
    Path.wholeKey? s'.view i cs = Path.wholeKey? s.view i cs := by
  have hc : s'.view.child? i (String.ofList cs) = s.view.child? i (String.ofList cs) := by
    simp only [View.child?,view,h]
  simp only [Path.wholeKey?,hc,isLeaf_eq s s']

theorem wholeKey?_assign {part : String} {y : Item} (cs : List Char)
    (h : (s.layer i).assign .null part y = .ok (s'.layer i)) :
    Path.wholeKey? s'.view i cs = none ∨
    (part = String.ofList cs ∧ Path.wholeKey? s'.view i cs = if s'.view.isLeaf y then some y else none) ∨
    (part ≠ String.ofList cs ∧ Path.wholeKey? s'.view i cs = Path.wholeKey? s.view i cs) := by
  have look (s : Store) : s.view.layer i = s.layer i := rfl
  unfold Path.wholeKey? View.child?
  rw [look,look]
  cases hl : s.layer i with
  | scalar a =>
    rw [hl] at h
    cases h
  | object es =>
    right
    rw [hl] at h
    rw [← Except.ok.inj h]
    simp only
    by_cases hk : String.ofList cs = part
    · rw [hk,Entries.get?_put_self]
      exact .inl ⟨rfl,rfl⟩
    · rw [Entries.get?_put_of_ne hk]
      exact .inr ⟨fun he => hk he.symm,by simp only [isLeaf_eq s s']⟩
  | list xs =>
    left
    rw [hl] at h
    obtain ⟨-,n,-,hys⟩ := Layer.assign_list h
    rw [hys]

theorem wholeKey?_writeAt (parts : List String) {d : Nat} (hd : s.Readable d i) {cs : List Char}
    (hflat : parts = [String.ofList cs] ∨ Path.wholeKey? s.view i cs = none)
    (hw : s.writeAt i parts x = (s',none)) :
    Path.wholeKey? s'.view i cs = none ∨ Path.wholeKey? s'.view i cs = some x := by
  have assigned {y : Item} {c : Prop} [Decidable c] : (if c then some y else none) = none ∨
      (if c then some y else none) = some y := by
    split <;> simp
  match parts with
  | [] =>
    cases hw
    exact .inl (hflat.resolve_left (by simp))
  | [part] =>
    rcases s.assign_cases i part x with ⟨f,ha⟩ | ⟨id,s₁,rfl,-,ha,hput,-⟩ <;> cases ha.symm.trans hw
    rcases wholeKey?_assign cs hput with hk | ⟨-,hk⟩ | ⟨hne,hk⟩ <;> rw [hk]
    · exact .inl rfl
    · exact assigned
    · exact .inl (hflat.resolve_left fun he => hne (List.cons.inj he).1)
  | part :: next :: rest =>
    have hnone := hflat.resolve_left (by simp)
    rcases writeAt_goes hd hw with ⟨j,-,-,-,-,hl⟩ | ⟨o,s₁,-,-,hp,-,hl⟩
    · exact .inl ((wholeKey?_of_layer hl).trans hnone)
    · left
      rcases wholeKey?_assign cs (hl ▸ hp.put) with hk | ⟨-,hk⟩ | ⟨-,hk⟩ <;> rw [hk]
      · simp [isLeaf_cell]
      · exact hnone

end Store

namespace Path

/-- The steps of a lookup at a path, behind the mark of the extracted data. -/
def lookupSteps (path : String) : List Segment :=
  (segments (withoutMark path.toList)).flatMap Segment.steps

/-- A lookup at a path retraces a write at the same path: from the root on, or from a container on
that the write passes through and that the lookup comes to in its own way. -/
def Retraced (s : Store) (root : Item) (path : String) : Prop :=
  ∃ j pre post gs hs, places path = pre ++ post ∧ lookupSteps path = gs ++ hs ∧
    s.Descends root pre j ∧ follow s.view root gs = some j ∧ s.Retraces (s.layer j) hs post

/-- No leaf has the whole path for its key, or the key is all that the path writes. -/
def Unshadowed (s : Store) (root : Item) (path : String) : Prop :=
  places path = [String.ofList (withoutMark path.toList)] ∨
    wholeKey? s.view root (withoutMark path.toList) = none

theorem isSingle_of_mem_lookupSteps {path : String} {g : Segment} (h : g ∈ lookupSteps path) :
    g.isSingle = true := by
  obtain ⟨h',-,hg⟩ := List.mem_flatMap.1 h
  exact Segment.isSingle_of_mem_steps hg

variable {s : Store} {root x : Item} {t : Value} {path : String} {last : Option String}

theorem lookup_written (hread : s.read? root = some t) (hr : Retraced s root path)
    (hflat : Unshadowed s root path) (hx : s.view.isNull x = false)
    (hw : (s.setPath root path x).2 = .ok last) :
    lookup (s.setPath root path x).1.view root path = some x := by
  have hd : s.Readable (s.cells.size + 1) root := ⟨t,hread⟩
  have hwrite := Store.writeAt_of_setPath hw
  have hshadow := Store.wholeKey?_writeAt _ hd hflat hwrite
  have hsize := s.size_writeAt root (places path) x
  generalize (s.setPath root path x).1 = s' at hwrite hshadow ⊢
  obtain ⟨j,pre,post,gs,hs,hplaces,hsteps,hpre,hgs,hpost⟩ := hr
  have hsingle : ∀ g ∈ gs, g.isSingle = true := fun g hg =>
    isSingle_of_mem_lookupSteps (hsteps ▸ List.mem_append_left hs hg)
  have hj := Store.isNull_eq_false_of_isContainer rfl hpost.isContainer
  rw [hwrite] at hsize
  -- From the container where the two ways meet, the write is one of its own.
  have hbelow : s.writeAt j post x = (s',none) := by
    rw [← hpre.writeAt_eq hpost.ne_nil,← hplaces,hwrite]
  have habove : follow s'.view root gs = some j := by
    have h := Store.follow_above hsingle hd hgs post x
    rwa [hbelow] at h
  have hfollow : follow s'.view root (lookupSteps path) = some x := by
    rw [hsteps,follow_append gs hs habove]
    exact Store.follow_writeAt post (hd.follow hsingle hgs) hpost hx hbelow
  rw [lookupSteps,follow_steps] at hfollow
  unfold lookup
  rw [isNull_of_follow habove (Store.isNull_mono hj hsize)]
  simp only [Bool.false_eq_true,if_false]
  rcases hshadow with hk | hk <;> rw [hk]
  exact hfollow

end Path

namespace Segment

def Names (g : Segment) (part : String) : Prop :=
  match g with
  | .key name => name = part ∧ Text.isFigures part = false
  | .index o => o = leadingIndex? part.toList ∧ ∃ i, o = some i ∧ toString i = part
  | .keyIndex _ _ => False

/-- Where a part can be assigned, the step that is spelled like it finds it. -/
theorem Names.finds {g : Segment} {part : String} {l l' : Layer α} {pad y : α} (h : g.Names part)
    (ha : l.assign pad part y = .ok l') : g.Finds l part := by
  cases g with
  | key name =>
    cases l with
    | scalar a => cases ha
    | object es => exact h.1
    | list xs =>
      simp only [Layer.assign,h.2] at ha
      cases ha
  | index o =>
    cases l with
    | scalar a => cases ha
    | object es => exact h.2
    | list xs => exact h.1
  | keyIndex name i => cases h

end Segment

namespace Store

variable {s s' : Store} {i x : Item}

theorem Retraces.of_names {parts : List String} {gs : List Segment} {d : Nat}
    (hd : s.Readable d i) (h : List.Forall₂ Segment.Names gs parts)
    (hne : parts ≠ []) (hw : s.writeAt i parts x = (s',none)) :
    s.Retraces (s.layer i) gs parts := by
  induction parts generalizing s i gs d with
  | nil => exact absurd rfl hne
  | cons part rest ih =>
    obtain ⟨g,gs,hg,hgs,rfl⟩ := List.forall₂_cons_right_iff.1 h
    cases rest with
    | nil =>
      cases hgs
      rcases s.assign_cases i part x with ⟨f,ha⟩ | ⟨id,s₁,rfl,-,ha,hput,-⟩
      · cases ha.symm.trans hw
      · exact .last (hg.finds hput)
    | cons next rest =>
      rcases writeAt_goes hd hw with ⟨j,hj,hc,⟨d,hd⟩,hw,-⟩ | ⟨o,s₁,ho,hf,hp,hw,-⟩
      · obtain ⟨l,ha⟩ := Layer.assign_of_child? hj .null x
        have hbehind := ih hd hgs (by simp) hw
        rw [← through_there hj hc next] at hbehind
        exact .further (hg.finds ha) hbehind
      · have hbehind := ih (readable_empty hp.fresh (fresh_below next)) hgs (by simp) hw
        rw [hp.fresh] at hbehind
        replace hbehind := hbehind.of_empty (fresh_below next) s
        rw [← through_new ho hf next] at hbehind
        exact .further (hg.finds hp.put) hbehind

end Store

namespace Path

/-- A path whose pieces a lookup and a write cut alike: keys between dots that are no figures, and
indexes as they are printed, behind a dot or in the only brackets of a piece. -/
def CutAlike (path : String) : Prop :=
  List.Forall₂ Segment.Names (lookupSteps path) (places path) ∧ places path ≠ []

theorem CutAlike.retraced {s : Store} {root x : Item} {t : Value} {path : String}
    {last : Option String} (hp : CutAlike path) (hread : s.read? root = some t)
    (hw : (s.setPath root path x).2 = .ok last) : Retraced s root path :=
  ⟨root,[],places path,[],lookupSteps path,rfl,rfl,.here root,rfl,
    Store.Retraces.of_names ⟨t,hread⟩ hp.1 hp.2 (Store.writeAt_of_setPath hw)⟩

theorem retraced_shared {s : Store} {root e j x : Item} {t : Value} {path first name : String}
    {last : Option String} {hs : List Segment} {post : List String}
    (hplaces : places path = first :: name :: post) (hsteps : lookupSteps path = .key name :: hs)
    (hnames : List.Forall₂ Segment.Names hs post) (hne : post ≠ [])
    (he : (s.layer root).child? first = .ok (some e)) (hec : s.isContainer e = true)
    (hj : (s.layer e).child? name = .ok (some j)) (hjc : s.isContainer j = true)
    (hroot : s.view.child? root name = some j) (hread : s.read? root = some t)
    (hw : (s.setPath root path x).2 = .ok last) : Retraced s root path := by
  have hpre : s.Descends root [first,name] j := .further he hec (.further hj hjc (.here j))
  have hnull : s.view.isNull j = false := Store.isNull_eq_false_of_isContainer rfl hjc
  have hgs : follow s.view root [.key name] = some j := follow_cons.2 ⟨j,hroot,hnull,rfl⟩
  have hd : s.Readable (s.cells.size + 1) root := ⟨t,hread⟩
  have hsingle : ∀ g ∈ [Segment.key name], g.isSingle = true := fun g hg => by
    rw [List.mem_singleton.1 hg]
    rfl
  have hwrite : s.writeAt j post x = ((s.setPath root path x).1,none) := by
    rw [← hpre.writeAt_eq hne,← Store.writeAt_of_setPath hw,hplaces]
    rfl
  exact ⟨j,[first,name],post,[.key name],hs,hplaces,hsteps,hpre,hgs,
    Store.Retraces.of_names (hd.follow hsingle hgs) hnames hne hwrite⟩

theorem names_lines : List.Forall₂ Segment.Names [.key "lines",.index (some 1),.key "sku"]
    ["lines","1","sku"] := by
  refine .cons ⟨rfl,?_⟩ (.cons ⟨?_,1,rfl,rfl⟩ (.cons ⟨rfl,?_⟩ .nil)) <;> decide +kernel

theorem cutAlike_lines : CutAlike "shipment.lines[1].sku" := by
  have hsteps : lookupSteps "shipment.lines[1].sku" =
      [.key "shipment",.key "lines",.index (some 1),.key "sku"] := by decide +kernel
  have hplaces : places "shipment.lines[1].sku" = ["shipment","lines","1","sku"] := by
    decide +kernel
  unfold CutAlike
  rw [hsteps,hplaces]
  exact ⟨.cons ⟨rfl,by decide +kernel⟩ names_lines,by simp⟩

end Path

/-- What a run writes into its context at a path is found at the same path, by a lookup as well as
by a placeholder, where the lookup retraces the write and no leaf stands in its way. -/
theorem Context.lookup_setPath {s : Store} {c x : Item} {t : Value} {path : String}
    {last : Option String} (hread : s.read? c = some t) (hx : s.view.isNull x = false)
    (hr : Path.Retraced s c path) (hflat : Path.Unshadowed s c path)
    (hw : (setPath s c path x).2 = .ok last) :
    (setPath s c path x).1.lookup c path = x ∧
      (scope (setPath s c path x).1 c).find path = (setPath s c path x).1.read x := by
  have hlookup : Path.lookup (setPath s c path x).1.view c path = some x :=
    Path.lookup_written hread hr hflat hx hw
  refine ⟨?_,?_⟩
  · rw [Store.lookup,hlookup]
    rfl
  · simp only [scope,Scope.ofItem,Scope.of,Store.access,hlookup]

def Context.vacant : Store := ⟨#[.object []]⟩

def Context.flattened : Store :=
  ⟨#[.object [("extractedData",.cell 1),("Bill.Number",.int 1)],.object []]⟩

/-- Writes of the number five that come about and are not found: a lookup cuts the mark of the
extracted data off, it reads one pair of brackets in a piece, and it prefers a leaf with the whole
path for its key. -/
theorem Context.setPath_not_found :
    ((setPath flattened (.cell 0) "extractedData.total" (.int 5)).2.toOption = some (some "total") ∧
      ((setPath flattened (.cell 0) "extractedData.total" (.int 5)).1.lookup (.cell 0)
        "extractedData.total").isNull = true) ∧
    ((setPath flattened (.cell 0) "rows[0][1]" (.int 5)).2.toOption = some (some "1") ∧
      ((setPath flattened (.cell 0) "rows[0][1]" (.int 5)).1.lookup (.cell 0) "rows[0][1]" ==
        .int 5) = false) ∧
    (setPath flattened (.cell 0) "Bill.Number" (.int 5)).2.toOption = some (some "Number") ∧
      ((setPath flattened (.cell 0) "Bill.Number" (.int 5)).1.lookup (.cell 0) "Bill.Number" ==
        .int 1) = true := by
  decide +kernel

def Context.sharing : Store :=
  ⟨#[.object [("extractedData",.cell 1),("shipment",.cell 2)],.object [("shipment",.cell 2)],
    .object []]⟩

theorem setPath_ok {s : Store} {c x : Item} {path key : String}
    (h : (Context.setPath s c path x).2.toOption = some (some key)) :
    (Context.setPath s c path x).2 = .ok (some key) := by
  generalize (Context.setPath s c path x).2 = done at h
  cases done with
  | error f => cases h
  | ok last => rw [Option.some.inj h]

/-- A line of a shipment is written and found: in an empty context, and below the mark of the
extracted data in a context that shares the shipment with them. -/
theorem Context.lookup_setPath_lines :
    (setPath vacant (.cell 0) "shipment.lines[1].sku" (.text "X-1")).1.lookup (.cell 0)
        "shipment.lines[1].sku" = .text "X-1" ∧
      (setPath sharing (.cell 0) "extractedData.shipment.lines[1].sku" (.text "X-1")).1.lookup
        (.cell 0) "extractedData.shipment.lines[1].sku" = .text "X-1" := by
  constructor
  · have hread : vacant.read? (.cell 0) = some (.object []) := rfl
    have hw : (setPath vacant (.cell 0) "shipment.lines[1].sku" (.text "X-1")).2 =
        .ok (some "sku") := setPath_ok (by decide +kernel)
    have hr := Path.cutAlike_lines.retraced hread hw
    exact (lookup_setPath hread rfl hr (.inr rfl) hw).1
  · have hread : sharing.read? (.cell 0) = some (.object [("extractedData",.object
        [("shipment",.object [])]),("shipment",.object [])]) := rfl
    have hw : (setPath sharing (.cell 0) "extractedData.shipment.lines[1].sku" (.text "X-1")).2 =
        .ok (some "sku") := setPath_ok (by decide +kernel)
    have hplaces : Path.places "extractedData.shipment.lines[1].sku" =
        ["extractedData","shipment","lines","1","sku"] := by decide +kernel
    have hsteps : Path.lookupSteps "extractedData.shipment.lines[1].sku" =
        [.key "shipment",.key "lines",.index (some 1),.key "sku"] := by decide +kernel
    have hr := Path.retraced_shared hplaces hsteps Path.names_lines (by simp) rfl rfl rfl rfl rfl
      hread hw
    exact (lookup_setPath hread rfl hr (.inr rfl) hw).1

end StepGraph
