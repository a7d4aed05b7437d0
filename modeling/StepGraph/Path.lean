import StepGraph.Text.Charset
import StepGraph.Decimal.Read
import StepGraph.View

/-!
Dotted and bracketed paths. `Segment.read` fixes the grammar of one segment, `lookup` follows the
segments of a path. A key that is spelled like the whole path and holds a leaf wins over following
the segments, so flattened names such as `Bill.Number` can be addressed.
-/
namespace StepGraph

/-- One step of a path. An index that cannot be read leads nowhere. -/
inductive Segment where
  | key (name : String)
  | index (i : Option Int)
  | keyIndex (name : String) (i : Option Int)
  deriving DecidableEq, Repr

namespace Segment

open Text

def leadingIndex? (cs : List Char) : Option Int :=
  let signed := Decimal.takeSign (dropBlanks cs)
  let digits := signed.2.takeWhile isDigit
  if digits.isEmpty || Decimal.maxDigits < digits.length then none
  else
    let n : Int := digitsToNat digits
    some (if signed.1 then -n else n)

/-- What may follow the digits of a numeric segment: an exponent, then blanks. -/
def numericTail (cs : List Char) : Bool :=
  let exponent :=
    match cs with
    | [] => some []
    | c :: rest =>
      if c == 'e' || c == 'E' then
        let digits := (Decimal.takeSign rest).2
        if (digits.takeWhile isDigit).isEmpty then none else some (digits.dropWhile isDigit)
      else some cs
  exponent.any (·.all isBlank)

def numericBody (cs : List Char) : Bool :=
  let rest := cs.dropWhile isDigit
  if (cs.takeWhile isDigit).isEmpty then
    match rest with
    | '.' :: more => !(more.takeWhile isDigit).isEmpty && numericTail (more.dropWhile isDigit)
    | _ => false
  else
    match rest with
    | '.' :: more => numericTail (more.dropWhile isDigit)
    | _ => numericTail rest

/-- Blank segments count as numeric, and then have no index. -/
def isNumeric (cs : List Char) : Bool :=
  cs.all isBlank || numericBody (Decimal.takeSign (dropBlanks cs)).2

/-- What stands between the first `[` and the first `]`; nothing when they stand the other way
round. -/
def bracketed (cs : List Char) : List Char :=
  ((cs.takeWhile (· != ']')).dropWhile (· != '[')).drop 1

def read (cs : List Char) : Segment :=
  if cs.contains '[' && cs.contains ']' then
    .keyIndex (String.ofList (cs.takeWhile (· != '['))) (leadingIndex? (bracketed cs))
  else if isNumeric cs then .index (leadingIndex? cs)
  else .key (String.ofList cs)

end Segment

def splitAt (isSeparator : Char → Bool) : List Char → List (List Char)
  | [] => [[]]
  | c :: rest =>
    if isSeparator c then [] :: splitAt isSeparator rest
    else
      match splitAt isSeparator rest with
      | [] => [[c]]
      | piece :: more => (c :: piece) :: more

namespace Path

/-- Paths may be written from the context or from the extracted data. -/
def contextMark : List Char := "extractedData.".toList

def withoutMark (cs : List Char) : List Char :=
  if contextMark.isPrefixOf cs then cs.drop contextMark.length else cs

def segments (cs : List Char) : List Segment := (splitAt (· == '.') cs).map Segment.read

variable {α : Type}

def itemAt (v : View α) (parent : α) : Option Int → Option α
  | none => none
  | some i =>
    match v.layer parent with
    | .list xs => if i < 0 then none else xs[i.toNat]?
    | .object es => Entries.get? es (toString i)
    | .scalar (.text t) =>
      if i < 0 then none else t.toList[i.toNat]?.map fun c => v.leaf (.text c.toString)
    | .scalar _ => none

def step (v : View α) (x : α) : Segment → Option α
  | .key name => v.child? x name
  | .index i => itemAt v x i
  | .keyIndex name i => (v.child? x name).bind fun y => itemAt v y i

/-- Follows segments; null leads nowhere, so the end is never null. -/
def follow (v : View α) : α → List Segment → Option α
  | x, [] => some x
  | x, s :: rest =>
    match step v x s with
    | none => none
    | some y => if v.isNull y then none else follow v y rest

/-- The entry spelled like the whole path, when it is a leaf. -/
def wholeKey? (v : View α) (root : α) (cs : List Char) : Option α :=
  match v.child? root (String.ofList cs) with
  | some x => if v.isLeaf x then some x else none
  | none => none

def lookup (v : View α) (root : α) (path : String) : Option α :=
  if v.isNull root then none
  else
    let cs := withoutMark path.toList
    match wholeKey? v root cs with
    | some x => some x
    | none => follow v root (segments cs)

end Path

def Value.lookup (root : Value) (path : String) : Value := .ofOption (Path.lookup Value.view root path)

def Value.lookupPath (root path : Value) : Value :=
  match path with
  | .text p => root.lookup p
  | _ => .null

end StepGraph
