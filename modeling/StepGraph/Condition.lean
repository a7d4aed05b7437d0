import StepGraph.Scope
import StepGraph.Text.Search

/-!
Conditions on values. Equality and containment compare the texts that a template would insert;
order compares leading numbers and fails where one side has none.
-/
namespace StepGraph

inductive Comparison where
  | above
  | below
  | atLeast
  | atMost
  deriving DecidableEq, Repr

inductive Operator where
  | isNull
  | notNull
  | blank
  | present
  | equal
  | different
  | contains
  | lacks
  | order (o : Comparison)
  deriving DecidableEq, Repr

namespace Operator

def spellings : List (String × Operator) :=
  [("is_not_null", notNull), ("isNotNull", notNull), ("is_null", isNull), ("isNull", isNull),
   ("not_exists", blank), ("notExists", blank), ("equals", equal), ("eq", equal),
   ("not_equals", different), ("notEquals", different), ("ne", different),
   ("contains", contains), ("not_contains", lacks), ("notContains", lacks),
   ("greater_than", order .above), ("gt", order .above),
   ("less_than", order .below), ("lt", order .below),
   ("greater_than_or_equal", order .atLeast), ("gte", order .atLeast),
   ("less_than_or_equal", order .atMost), ("lte", order .atMost)]

def ofName (name : String) : Operator := (spellings.lookup name).getD present

/-- Any leaf names an operator, an unknown one the test for presence; containers are refused. -/
def read : Value → Except Fault Operator
  | .text name => .ok (ofName name)
  | .list _ => .error .wrongKind
  | .object _ => .error .wrongKind
  | .scalar _ => .ok present

end Operator

namespace Condition

open Text Decimal

def leadingUnsigned? (cs : List Char) : Option (Nat × Int × List Char) :=
  let whole := cs.takeWhile isDigit
  let rest := cs.dropWhile isDigit
  let pointed :=
    match rest with
    | '.' :: more => some (more.takeWhile isDigit, more.dropWhile isDigit)
    | _ => none
  if whole.isEmpty then
    match pointed with
    | some (c :: fraction, after) =>
      some (digitsToNat (c :: fraction), -((c :: fraction).length : Int), after)
    | _ => none
  else
    match pointed with
    | some (fraction, after) => some (digitsToNat (whole ++ fraction), -(fraction.length : Int), after)
    | none => some (digitsToNat whole, 0, rest)

def leadingExponent (cs : List Char) : Int :=
  match cs with
  | [] => 0
  | c :: rest =>
    if c == 'e' || c == 'E' then
      let signed := takeSign rest
      let n : Int := digitsToNat (signed.2.takeWhile isDigit)
      if signed.1 then -n else n
    else 0

def leadingNumber? (s : String) : Option Float :=
  let signed := takeSign (dropBlanks s.toList)
  match leadingUnsigned? signed.2 with
  | some (digits, shift, rest) => some (ofDigits signed.1 digits (shift + leadingExponent rest))
  | none => if "Infinity".toList.isPrefixOf signed.2 then some (infinity signed.1) else none

/-- The number that a value starts with. Whole numbers out of the range of doubles are refused. -/
def numberOf? (v : Value) : Except Fault (Option Float) :=
  match v with
  | .null => .ok none
  | .bool _ => .ok none
  | .int i =>
    match ofInt? i with
    | some x => .ok (some x)
    | none => .error (.misuse .tooLarge)
  | .float x => .ok (if x.isNaN then none else some x)
  | v => do return leadingNumber? (← v.display)

def compare (o : Comparison) (x y : Float) : Bool :=
  match o with
  | .above => x > y
  | .below => x < y
  | .atLeast => x ≥ y
  | .atMost => x ≤ y

def isBlank : Value → Bool
  | .null => true
  | .text s => s.isEmpty
  | _ => false

def ordered (o : Comparison) (actual expected : Value) : Except Fault Bool := do
  let left ← numberOf? actual
  let right ← numberOf? expected
  match left, right with
  | some x, some y => return compare o x y
  | _, _ => return false

def contained (expected actual : Value) : Except Fault Bool := do
  let needle ← expected.asText
  let text ← actual.asText
  return occursIn needle.toList text.toList

def evaluate (op : Operator) (actual expected : Value) : Except Fault Bool :=
  match op with
  | .notNull => .ok (!actual.isNull)
  | .isNull => .ok actual.isNull
  | .blank => .ok (isBlank actual)
  | .present => .ok (!isBlank actual)
  | .equal => do return (← actual.asText) == (← expected.asText)
  | .different => do return (← actual.asText) != (← expected.asText)
  | .contains => contained expected actual
  | .lacks => do return !(← contained expected actual)
  | .order o => ordered o actual expected

def test (actual operator expected : Value) : Except Fault Bool := do
  evaluate (← Operator.read operator) actual expected

def withoutOpening (cs : List Char) : List Char :=
  if ['{', '{'].isPrefixOf cs then cs.drop 2 else cs

/-- Closing braces count at the end of a text and before a last line break. -/
def withoutClosing (cs : List Char) : List Char :=
  if ['}', '}'].isSuffixOf cs then cs.take (cs.length - 2)
  else if ['}', '}', '\n'].isSuffixOf cs then cs.take (cs.length - 3) ++ ['\n']
  else cs

def cleanPath (raw : Value) : Except Fault String := do
  let s ← (raw.orElse (.text "")).display
  return String.ofList (withoutClosing (withoutOpening s.toList))

end Condition

end StepGraph
