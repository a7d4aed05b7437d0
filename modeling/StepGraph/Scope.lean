import StepGraph.Store
import StepGraph.Value.Text

/-!
Where placeholders find their values. Everything that only reads a context takes a `Scope`, so it
serves a plain tree and a context of shared containers alike.
-/
namespace StepGraph

/-- A way to look into values that can also give the whole tree below one of them. -/
structure Access (α : Type) extends View α where
  tree : α → Except Fault Value

def Value.access : Access Value := ⟨Value.view, .ok⟩

def Store.access (s : Store) : Access Item := ⟨s.view, s.read⟩

/-- The value at a path; null when there is none. -/
structure Scope where
  find : String → Except Fault Value

namespace Scope

def of {α : Type} (a : Access α) (root : α) : Scope :=
  ⟨fun path =>
    match Path.lookup a.toView root path with
    | some x => a.tree x
    | none => .ok .null⟩

def ofValue (root : Value) : Scope := of Value.access root

def ofItem (s : Store) (root : Item) : Scope := of s.access root

def circular : Fault := .invalid "Circular reference detected"

def written (scope : Scope) : Scope :=
  ⟨fun path =>
    match scope.find path with
    | .error (.misuse .tooDeep) => .error circular
    | found => found⟩

def findPath (scope : Scope) (path : Value) : Except Fault Value :=
  match path with
  | .text p => scope.find p
  | _ => .ok .null

def textAt (scope : Scope) (path : String) : Except Fault (Option String) := do
  let v ← scope.find path
  if v.isNull then pure none else some <$> v.asText

end Scope

end StepGraph
