import StepGraph.Audit.Recorder
import StepGraph.Context.Mapping
import StepGraph.Graph.Route
import StepGraph.Proofs.Exec
import StepGraph.Records.Table

/-!
Faults that tell nothing about the workflow itself: what values, paths, tables and containers
complain about. No such fault is that of a step, of a graph, of a walk or of a run, and none says
that a place is out of range.
-/
namespace StepGraph

variable {α β ι : Type}

/-- A data fault: it tells nothing about the workflow itself, nor of a place that is out of range. -/
def Fault.isDataFault : Fault → Bool
  | .misuse .outOfRange => false
  | f => !f.isWorkflowTrouble

theorem Fault.untroubled_of_isDataFault {f : Fault} (h : f.isDataFault = true) :
    f.isWorkflowTrouble = false := by
  unfold isDataFault at h
  split at h
  · cases h
  · simpa using h

/-- A result whose fault, if it has one, is a data fault. -/
def OnlyDataFault (r : Except Fault α) : Prop := ∀ f, r = .error f → f.isDataFault = true

namespace OnlyDataFault

theorem ok (x : α) : OnlyDataFault (.ok x : Except Fault α) := by
  intro f h
  cases h

theorem error {f : Fault} (h : f.isDataFault = true) :
    OnlyDataFault (.error f : Except Fault α) := by
  intro f' h'
  cases h'
  exact h

theorem bind {r : Except Fault α} {f : α → Except Fault β} (hr : OnlyDataFault r)
    (hf : ∀ x, OnlyDataFault (f x)) :
    OnlyDataFault (r >>= f) := by
  cases r with
  | error e => exact error (hr e rfl)
  | ok x => exact hf x

theorem map {r : Except Fault α} (hr : OnlyDataFault r) (f : α → β) : OnlyDataFault (f <$> r) := by
  cases r with
  | error e => exact error (hr e rfl)
  | ok x => exact ok (f x)

theorem all {ρ : Type} (t : Table ρ) : OnlyDataFault t.all := by
  unfold Table.all
  split
  · exact ok _
  · exact error rfl

theorem held (i : Int) : OnlyDataFault (held i) := by
  unfold StepGraph.held
  split
  · exact ok _
  · exact error rfl

theorem heldAll (is : List (Option Int)) : OnlyDataFault (heldAll is) := by
  unfold StepGraph.heldAll
  split
  · exact ok _
  · exact error rfl

theorem find {ρ : Type} [Numbered ρ] (t : Table ρ) (id : Int) : OnlyDataFault (t.find id) :=
  (all t).bind fun _ => (held id).bind fun _ => ok _

theorem storeRead (s : Store) (i : Item) : OnlyDataFault (s.read i) := by
  unfold Store.read
  split
  · exact ok _
  · exact error rfl

theorem kept (v : Value) : OnlyDataFault v.kept := by
  unfold Value.kept
  split
  · exact error rfl
  · exact ok _

theorem mapKept (context : Option Value) : OnlyDataFault (context.mapM Value.kept) := by
  cases context with
  | none => exact ok _
  | some v =>
    rw [Option.mapM_some]
    exact (kept v).map _

theorem unwritable (u : Json.Unwritable) : u.fault.isDataFault = true := by cases u <;> rfl

theorem json (l : Json.Layout) (v : Value) : OnlyDataFault (v.json l) := by
  unfold Value.json
  split
  · exact error (unwritable _)
  · exact ok _

theorem display (v : Value) : OnlyDataFault v.display := by
  unfold Value.display
  split
  · exact ok _
  · split
    · exact error (unwritable _)
    · exact ok _

theorem asText (v : Value) : OnlyDataFault v.asText := by
  unfold Value.asText
  split
  · split
    · exact ok _
    · exact ok _
    · unfold Value.intText
      split
      · exact ok _
      · exact error rfl
    · exact ok _
    · exact ok _
    · exact ok _
    · exact ok _
  · exact json _ _

theorem written {scope : Scope} {path : String} (h : OnlyDataFault (scope.find path)) :
    OnlyDataFault (scope.written.find path) := by
  unfold Scope.written
  simp only
  split
  · exact error rfl
  · exact h

theorem findPath (s : Store) (root : Item) (path : Value) :
    OnlyDataFault ((Scope.ofItem s root).written.findPath path) := by
  unfold Scope.findPath
  split
  · refine written ?_
    simp only [Scope.ofItem,Scope.of]
    split
    · exact storeRead s _
    · exact ok _
  · exact ok _

theorem skipReason (config : Value) (s : Store) (root : Item) :
    OnlyDataFault (skipReason config (Scope.ofItem s root).written) := by
  have skipIf : OnlyDataFault (skipIfReason config (Scope.ofItem s root).written) := by
    unfold skipIfReason
    simp only
    split
    · refine (findPath s root _).bind fun v => ?_
      split
      · exact (display _).bind fun _ => ok _
      · exact ok _
    · exact ok _
  have runIf : OnlyDataFault (runIfReason config (Scope.ofItem s root).written) := by
    unfold runIfReason
    simp only
    split
    · refine (findPath s root _).bind fun v => ?_
      split
      · exact ok _
      · exact (display _).bind fun _ => (asText _).bind fun _ => ok _
    · exact ok _
  refine skipIf.bind fun r => ?_
  cases r with
  | some reason => exact ok _
  | none => exact runIf

theorem parts (v : Value) : OnlyDataFault v.parts := by
  unfold Value.parts View.parts
  split
  · exact ok _
  · exact ok _
  · exact ok _
  · exact ok _
  · exact error rfl

theorem optionalParts (v : Value) : OnlyDataFault v.optionalParts := by
  change OnlyDataFault (if v.truthy then v.parts else .ok [])
  split
  · exact parts v
  · exact ok _

theorem member (v : Value) (k : String) : OnlyDataFault (v.member k) := by
  unfold Value.member View.member
  split
  · exact ok _
  · exact error rfl

theorem keyOf (v : Value) : OnlyDataFault (Edit.keyOf v) := by
  unfold Edit.keyOf
  split
  · exact error rfl
  · exact error rfl
  · exact display v

theorem placeOf (part : String) : OnlyDataFault (Layer.placeOf part) := by
  unfold Layer.placeOf readWhole
  split
  · exact ok _
  · exact error rfl
  · exact error rfl

theorem child? (l : Layer α) (part : String) : OnlyDataFault (l.child? part) := by
  cases l with
  | scalar a => exact error rfl
  | object es => exact ok _
  | list xs =>
    simp only [Layer.child?]
    split
    · exact map (placeOf part) _
    · exact error rfl

theorem assign (pad : α) (l : Layer α) (part : String) (x : α) :
    OnlyDataFault (l.assign pad part x) := by
  cases l with
  | scalar a => exact error rfl
  | object es => exact ok _
  | list xs =>
    simp only [Layer.assign]
    split
    · exact map (placeOf part) _
    · exact error rfl

end OnlyDataFault

namespace Edit

open Attempt

abbrev DataFaultsOnly (e : Edit α) : Prop := Never (fun f => f.isDataFault = false) e

theorem dataFaultsOnly_of {r : Except Fault α} (h : OnlyDataFault r) : DataFaultsOnly (Edit.of r) :=
  .of fun f hf => by simp [h f hf]

theorem dataFaultsOnly_run' (f : Store → Store × α) : DataFaultsOnly (Edit.run' f) :=
  fun s f hf => by cases hf

theorem dataFaultsOnly_get : DataFaultsOnly (get : Edit Store) := fun s f hf => by cases hf

theorem dataFaultsOnly_lookup (root : Item) (path : Value) :
    DataFaultsOnly (Edit.lookup root path) := by
  unfold Edit.lookup
  split
  · exact dataFaultsOnly_get.bind fun _ => .pure _
  · exact .pure _

theorem dataFault_assignStore (s : Store) (i : Item) (part : String) (x : Item) {f : Fault}
    (h : (s.assign i part x).2 = some f) : f.isDataFault = true := by
  have hc := OnlyDataFault.assign Item.null (s.layer i) part x
  unfold Store.assign at h
  split at h
  · cases h
  · rename_i f' he
    cases h
    exact hc _ he

theorem dataFault_writeAt (parts : List String) (s : Store) (i x : Item) {f : Fault}
    (h : (s.writeAt i parts x).2 = some f) : f.isDataFault = true := by
  induction parts generalizing s i with
  | nil => cases h
  | cons part rest ih =>
    cases rest with
    | nil => exact dataFault_assignStore s i part x h
    | cons next rest =>
      have hc := OnlyDataFault.child? (s.layer i) part
      unfold Store.writeAt at h
      split at h
      · rename_i f' he
        cases h
        exact hc _ he
      · split at h
        · exact ih s _ h
        · simp only at h
          split at h
          · exact ih _ _ h
          · rename_i s' f' he
            cases h
            exact dataFault_assignStore _ i part _ (congrArg Prod.snd he)

theorem dataFaultsOnly_setPath (target : Item) (path : Value) (x : Item) :
    DataFaultsOnly (Edit.setPath target path x) := by
  unfold Edit.setPath
  split
  · rename_i p
    intro s f hf
    have hw := dataFault_writeAt (Path.places p) s target x (f := f)
    change (s.setPath target p x).2 = .error f at hf
    unfold Store.setPath at hf
    simp only at hf
    split at hf
    · cases hf
    · rename_i s' f' he
      cases hf
      rw [he] at hw
      simp [hw rfl]
  · exact .throw (by simp [Fault.wrongKind,Fault.isDataFault,Fault.isWorkflowTrouble])

theorem dataFaultsOnly_respond (c response : Item) (applied : Entries Item) (m : Value) :
    DataFaultsOnly (Mapping.respond c response applied m) := by
  unfold Mapping.respond
  refine (dataFaultsOnly_of (.member m _)).bind fun source => ?_
  simp only
  split
  · exact .pure _
  · refine (dataFaultsOnly_lookup _ _).bind fun x => ?_
    split
    · exact .pure _
    · exact (Never.closed.map (dataFaultsOnly_setPath c _ x) _).bind fun _ => .pure _

theorem dataFaultsOnly_set (c : Item) (k : String) (x : Item) : DataFaultsOnly (Edit.set c k x) :=
  dataFaultsOnly_run' _

theorem dataFaultsOnly_storeOutput (c : Item) (name : Value) (x : Item) :
    DataFaultsOnly (Mapping.storeOutput c name x) := by
  unfold Mapping.storeOutput
  split
  · exact .pure _
  · refine (dataFaultsOnly_of (.keyOf name)).bind fun k => (dataFaultsOnly_set c k x).bind fun _ => ?_
    refine dataFaultsOnly_get.bind fun s => ?_
    split
    · exact dataFaultsOnly_set _ _ _
    · exact .pure _

theorem dataFaultsOnly_record (c source : Item) (m : Value) :
    DataFaultsOnly (Mapping.record c source m) := by
  unfold Mapping.record
  refine (dataFaultsOnly_of (.member m _)).bind fun path => ?_
  simp only
  split
  · exact .pure _
  · refine (dataFaultsOnly_lookup _ _).bind fun x => dataFaultsOnly_get.bind fun s => ?_
    refine (dataFaultsOnly_setPath _ _ x).bind fun last => ?_
    split
    · exact dataFaultsOnly_set _ _ _
    · exact .pure _

theorem dataFaultsOnly_recordAll (c source : Item) (mappings : Value) :
    DataFaultsOnly (Mapping.recordAll c source mappings) :=
  (dataFaultsOnly_of (.optionalParts _)).bind fun _ => Never.closed.forM fun m _ =>
    dataFaultsOnly_record c source m

end Edit

end StepGraph
