import StepGraph.Value
import StepGraph.Decimal.Read
import StepGraph.Decimal.Shortest
import StepGraph.Json.Syntax
import StepGraph.Text.Quoted

/-!
Writing values as document text in ASCII: characters outside it are written as one or two UTF-16
units. Leaves that documents do not have are written as their plain text, or refused.
-/
namespace StepGraph.Json

def unitEscape (n : Nat) : List Char := '\\' :: 'u' :: Text.hexDigits 4 n

def escapeChar (c : Char) : List Char :=
  if c == '"' then ['\\', '"']
  else if c == '\\' then ['\\', '\\']
  else if c == '\n' then ['\\', 'n']
  else if c == '\r' then ['\\', 'r']
  else if c == '\t' then ['\\', 't']
  else if c == '\x08' then ['\\', 'b']
  else if c == '\x0c' then ['\\', 'f']
  else if 0x20 ≤ c.toNat && c.toNat < 0x7F then [c]
  else if c.toNat < 0x10000 then unitEscape c.toNat
  else
    let n := c.toNat - 0x10000
    unitEscape (0xD800 + n / 0x400) ++ unitEscape (0xDC00 + n % 0x400)

def quote (s : String) : String := String.ofList ('"' :: s.toList.flatMap escapeChar ++ ['"'])

def spelling : Decimal.Spelling := ⟨"Infinity", "NaN"⟩

def scalarText : Scalar → String
  | .null => "null"
  | .bool b => if b then "true" else "false"
  | .int i => toString i
  | .float x => spelling.show x
  | .text s => quote s
  | .bytes b => quote (Text.quotedBytes b)
  | .moment t => quote (t.isoWith " ")

/-- What stands between the items of a container and around them. -/
structure Layout where
  item : String
  colon : String
  /-- Blanks per level; each item on a line of its own when given. -/
  indent : Option Nat

def compact : Layout := ⟨",", ":", none⟩
def spaced : Layout := ⟨", ", ": ", none⟩
def indented : Layout := ⟨",", ": ", some 2⟩

def Layout.newline (l : Layout) (level : Nat) : String :=
  match l.indent with
  | some n => "\n" ++ String.ofList (List.replicate (n * level) ' ')
  | none => ""

mutual

def render (l : Layout) (level : Nat) : Value → String
  | .scalar s => scalarText s
  | .list xs =>
    match xs with
    | [] => "[]"
    | x :: rest =>
      "[" ++ l.newline (level + 1) ++ render l (level + 1) x ++ renderItems l (level + 1) rest ++
        l.newline level ++ "]"
  | .object es =>
    match es with
    | [] => "\x7b\x7d"
    | (k, v) :: rest =>
      "\x7b" ++ l.newline (level + 1) ++ quote k ++ l.colon ++ render l (level + 1) v ++
        renderEntries l (level + 1) rest ++ l.newline level ++ "\x7d"

def renderItems (l : Layout) (level : Nat) : List Value → String
  | [] => ""
  | x :: rest => l.item ++ l.newline level ++ render l level x ++ renderItems l level rest

def renderEntries (l : Layout) (level : Nat) : List (String × Value) → String
  | [] => ""
  | (k, v) :: rest =>
    l.item ++ l.newline level ++ quote k ++ l.colon ++ render l level v ++
      renderEntries l level rest

end

inductive Unwritable where
  | tooManyDigits
  | leaf
  deriving DecidableEq, Repr

def writtenLimit : Nat := tenTo Decimal.maxDigits

/-- Leaves that no document has are refused only when `strict`. -/
def scalarFault? (strict : Bool) : Scalar → Option Unwritable
  | .int i => if i.natAbs < writtenLimit then none else some .tooManyDigits
  | .bytes _ => if strict then some .leaf else none
  | .moment _ => if strict then some .leaf else none
  | _ => none

mutual

def fault? (strict : Bool) : Value → Option Unwritable
  | .scalar s => scalarFault? strict s
  | .list xs => itemsFault? strict xs
  | .object es => entriesFault? strict es

def itemsFault? (strict : Bool) : List Value → Option Unwritable
  | [] => none
  | x :: rest => (fault? strict x).or (itemsFault? strict rest)

def entriesFault? (strict : Bool) : List (String × Value) → Option Unwritable
  | [] => none
  | (_, v) :: rest => (fault? strict v).or (entriesFault? strict rest)

end

end StepGraph.Json
