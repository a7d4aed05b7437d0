import StepGraph.Path
import StepGraph.View

/-!
Writing at a path. One level of the rule is `Layer.child?` and `Layer.assign`; a write goes down
level by level, keeps every container it meets and puts a new one where there is none. Lists grow
by nulls up to the written place. The same two functions serve trees and shared containers.
-/
namespace StepGraph

def Path.places (path : String) : List String :=
  ((splitAt (fun c => c == '.' || c == '[' || c == ']') path.toList).filter (!·.isEmpty)).map
    String.ofList

def invalidWhole (s : String) : Fault :=
  .invalid ("invalid literal for int() with base 10: " ++ Text.quoted s)

def readWhole (s : String) : Except Fault Int :=
  match Decimal.readWhole s with
  | .value i => .ok i
  | .malformed => .error (invalidWhole s)
  | .tooLong n => .error (.invalid (Json.tooManyDigitsText n))

namespace Layer

variable {α : Type}

def placeOf (part : String) : Except Fault Nat := (readWhole part).map Int.toNat

def child? (l : Layer α) (part : String) : Except Fault (Option α) :=
  match l with
  | .object es => .ok (Entries.get? es part)
  | .list xs =>
    if Text.isFigures part then (placeOf part).map fun i => xs[i]? else .error .noSuchMember
  | .scalar _ => .error .noSuchMember

def setPadded (pad : α) (xs : List α) (i : Nat) (x : α) : List α :=
  (xs ++ List.replicate (i + 1 - xs.length) pad).set i x

def assign (pad : α) (l : Layer α) (part : String) (x : α) : Except Fault (Layer α) :=
  match l with
  | .object es => .ok (.object (Entries.put es part x))
  | .list xs =>
    if Text.isFigures part then (placeOf part).map fun i => .list (setPadded pad xs i x)
    else .error .wrongKind
  | .scalar _ => .error .wrongKind

def isContainer : Layer α → Bool
  | .scalar _ => false
  | _ => true

/-- The container that a write puts before the place `next`: a list before a figure. -/
def fresh (next : String) : Layer α := if Text.isFigures next then .list [] else .object []

end Layer

def Layer.toValue : Layer Value → Value
  | .scalar s => .scalar s
  | .list xs => .list xs
  | .object es => .object es

namespace Value

/-- A tree after a write, with the fault that stopped the write if there was one. What a stopped
write had built before stays. -/
abbrev Written := Value × Option Fault

def place (root : Value) (part : String) (x : Value) : Written :=
  match root.layer.assign .null part x with
  | .ok l => (l.toValue, none)
  | .error f => (root, some f)

def writeAt (root : Value) : List String → Value → Written
  | [], _ => (root, none)
  | [last], x => root.place last x
  | part :: next :: rest, x =>
    match root.layer.child? part with
    | .error f => (root, some f)
    | .ok c =>
      let kept := c.filter (·.layer.isContainer)
      let start := kept.getD (Layer.fresh next).toValue
      let below := start.writeAt (next :: rest) x
      let here := root.place part below.1
      (here.1, below.2.or here.2)

/-- Writes at a path and names its last place; an empty path writes nothing. -/
def setPath (root : Value) (path : String) (x : Value) : Value × Except Fault (Option String) :=
  let parts := Path.places path
  match root.writeAt parts x with
  | (v, none) => (v, .ok parts.getLast?)
  | (v, some f) => (v, .error f)

/-- Writes below every object that the places lead to. A list on the way branches into each of
its objects and leaves its other items alone. -/
def fanOut : List String → Value → Value → Written
  | [], root, _ => (root, none)
  | [last], root, x => root.place last x
  | part :: next :: rest, root, x =>
    match root with
    | .object es =>
      match Entries.get? es part with
      | some (.list items) =>
        let branch (item : Value) := if item.isObject then (fanOut (next :: rest) item x).1 else item
        (.object (Entries.put es part (.list (items.map branch))), none)
      | some (.object fs) =>
        let below := fanOut (next :: rest) (.object fs) x
        (.object (Entries.put es part below.1), below.2)
      | _ =>
        let below := fanOut (next :: rest) (.object []) x
        (.object (Entries.put es part below.1), below.2)
    | _ => (root, some .noSuchMember)

/-- The places of a field path, empty ones kept. -/
def fieldPlaces (path : String) : List String := (splitAt (· == '.') path.toList).map String.ofList

def setField (root : Value) (path : String) (x : Value) : Written :=
  fanOut (fieldPlaces path) root x

end Value

end StepGraph
