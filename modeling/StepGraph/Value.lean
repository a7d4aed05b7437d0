import StepGraph.Entries
import StepGraph.Time.Moment

/-!
Values that a workflow carries: documents of the usual interchange kind, with whole numbers of any
size beside doubles, and with bytes and moments as two more leaves. A `Value` is a tree; values
that are stored once and reached from several places live in a `Store`.
-/
namespace StepGraph

open Time (Moment)

inductive Scalar where
  | null
  | bool (b : Bool)
  | int (i : Int)
  | float (x : Float)
  | text (s : String)
  | bytes (b : ByteArray)
  | moment (t : Moment)
  deriving BEq, Inhabited

inductive Value where
  | scalar (s : Scalar)
  | list (items : List Value)
  | object (entries : List (String × Value))
  deriving Inhabited

/-- One level of a value whose parts are of type `α`. -/
inductive Layer (α : Type) where
  | scalar (s : Scalar)
  | list (items : List α)
  | object (entries : Entries α)

/-- How to look one level into a value of type `α`, and how a leaf becomes one. -/
structure View (α : Type) where
  layer : α → Layer α
  leaf : Scalar → α

namespace Value

@[match_pattern] abbrev null : Value := .scalar .null
@[match_pattern] abbrev bool (b : Bool) : Value := .scalar (.bool b)
@[match_pattern] abbrev int (i : Int) : Value := .scalar (.int i)
@[match_pattern] abbrev float (x : Float) : Value := .scalar (.float x)
@[match_pattern] abbrev text (s : String) : Value := .scalar (.text s)
@[match_pattern] abbrev bytes (b : ByteArray) : Value := .scalar (.bytes b)
@[match_pattern] abbrev moment (t : Moment) : Value := .scalar (.moment t)

def layer : Value → Layer Value
  | .scalar s => .scalar s
  | .list xs => .list xs
  | .object es => .object es

def view : View Value := ⟨layer, .scalar⟩

def ofOption : Option Value → Value
  | some v => v
  | none => null

def ofText? : Option String → Value
  | some s => .text s
  | none => null

def ofNat (n : Nat) : Value := .int n

def ofNat? : Option Nat → Value
  | some n => .int n
  | none => null

def texts (ss : List String) : Value := .list (ss.map .text)

end Value

end StepGraph
