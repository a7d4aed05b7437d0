import StepGraph.Decimal.Binary64
import StepGraph.Text.Charset

/-!
Reading numbers from text: whole numbers and doubles, with surrounding blanks, a sign, digits of
any script and single underscores between digits.
-/
namespace StepGraph.Decimal

open Text

def takeSign : List Char → Bool × List Char
  | '-' :: rest => (true, rest)
  | '+' :: rest => (false, rest)
  | cs => (false, cs)

def joinGroups : List Char → List Char
  | a :: '_' :: b :: rest =>
    if isDigit a && isDigit b then a :: joinGroups (b :: rest) else a :: '_' :: joinGroups (b :: rest)
  | a :: rest => a :: joinGroups rest
  | [] => []

def trimmedChars (s : String) : List Char := (trim s).toList

def maxDigits : Nat := 4300

inductive WholeReading where
  | value (i : Int)
  | malformed
  | tooLong (digits : Nat)
  deriving DecidableEq, Repr

def readWhole (s : String) : WholeReading :=
  let (negative, rest) := takeSign (trimmedChars s)
  let digits := joinGroups rest
  if digits.isEmpty || !digits.all isDigit then .malformed
  else if maxDigits < digits.length then .tooLong digits.length
  else .value (if negative then -(digitsToNat digits : Int) else digitsToNat digits)

/-- An exponent mark with its number; `none` when what follows is no exponent. -/
def readExponent? : List Char → Option Int
  | [] => some 0
  | c :: rest =>
    if c == 'e' || c == 'E' then
      let (negative, digits) := takeSign rest
      if digits.isEmpty || !digits.all isDigit then none
      else some (if negative then -(digitsToNat digits : Int) else digitsToNat digits)
    else none

def readUnsigned? (negative : Bool) (cs : List Char) : Option Float :=
  let whole := cs.takeWhile isDigit
  let rest := cs.dropWhile isDigit
  let (fraction, rest) :=
    match rest with
    | '.' :: more => (more.takeWhile isDigit, more.dropWhile isDigit)
    | _ => ([], rest)
  if whole.isEmpty && fraction.isEmpty then none
  else (readExponent? rest).map fun e =>
    ofDigits negative (digitsToNat (whole ++ fraction)) (e - fraction.length)

def lowerAscii (cs : List Char) : String := String.ofList (cs.map Char.toLower)

def readFloat? (s : String) : Option Float :=
  let (negative, rest) := takeSign (trimmedChars s)
  let word := lowerAscii rest
  if word == "inf" || word == "infinity" then some (infinity negative)
  else if word == "nan" then some notANumber
  else readUnsigned? negative (joinGroups rest)

end StepGraph.Decimal
