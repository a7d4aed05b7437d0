import StepGraph.Path.Write
import StepGraph.Time.Form
import StepGraph.Value.Text

/-!
Casting a raw field value to the data type of its mapping. Text that names no date is passed on
trimmed; text that is no number gives null. Elsewhere whole numbers are read from values of any
kind.
-/
namespace StepGraph.Value

/-- The whole number a value stands for: numbers lose their fraction, text is read. -/
def whole : Value → Except Fault Int
  | .scalar s =>
    match s with
    | .bool b => .ok (if b then 1 else 0)
    | .int i => .ok i
    | .text t => readWhole t
    | .float x =>
      match Decimal.Reading.ofFloat x with
      | .finite d => .ok d.truncate
      | .infinite _ => .error (.misuse .tooLarge)
      | .nan => .error (.invalid "cannot convert float NaN to integer")
    | _ => .error .wrongKind
  | _ => .error .wrongKind

end StepGraph.Value

namespace StepGraph.Value

namespace Cast

open Text Time Decimal

inductive DataType where
  | number
  | integer
  | boolean
  | dateOnly
  | dateTime
  | registration
  | plain
  deriving DecidableEq, Repr

def DataType.ofName : String → DataType
  | "number" => .number
  | "integer" => .integer
  | "boolean" => .boolean
  | "date_only" => .dateOnly
  | "datetime" => .dateTime
  | "rin" => .registration
  | _ => .plain

def DataType.ofValue : Value → DataType
  | .text s => ofName s
  | _ => .plain

def rawText (v : Value) : Except Fault String :=
  match v with
  | .bool b => .ok (if b then "true" else "false")
  | .float x =>
    match Decimal.Reading.ofFloat x with
    | .finite d => .ok (if d.isWhole then toString d.truncate else showFloat x)
    | _ => .ok (showFloat x)
  | v => do return trim (← v.display)

/-- A whole double is a whole number unless the text has a point or an exponent. -/
def number (s : String) : Value :=
  match readFloat? s with
  | none => .null
  | some x =>
    match Decimal.Reading.ofFloat x with
    | .nan => .null
    | .infinite _ => .float x
    | .finite d =>
      if d.isWhole && !s.toList.any fun c => c == '.' || c == 'e' || c == 'E' then .int d.truncate
      else .float x

def leadingWhole (s : String) : Except Fault Value :=
  let signed := takeSign (dropBlanks s.toList)
  let digits := signed.2.takeWhile isDigit
  if digits.isEmpty then .ok .null
  else if maxDigits < digits.length then .error (.invalid (Json.tooManyDigitsText digits.length))
  else
    let n : Int := digitsToNat digits
    .ok (.int (if signed.1 then -n else n))

/-- Years are written without leading zeros. -/
def dateText (t : Moment) : String :=
  toString t.year ++ "-" ++ padded 2 t.month ++ "-" ++ padded 2 t.day

def asUtc (t : Moment) : Except Fault Moment :=
  if t.offset.isNone then .ok t
  else
    match t.inUtc? with
    | some u => .ok u
    | none => .error (.misuse .tooLarge)

def dateTimeText (t : Moment) : String :=
  dateText t ++ "T" ++ t.timeText ++ "." ++ padded 3 (t.micro / 1000) ++ "Z"

def dated (render : Moment → String) (s : String) : Except Fault Value :=
  if s.isEmpty then .ok .null
  else do
    match ← Form.readMoment s with
    | none => return .text s
    | some t => return .text (render (← asUtc t))

def registration (s : String) : String :=
  upper (String.ofList (s.toList.filter fun c => c.isAlphanum))

end Cast

open Cast in
def cast (type : DataType) (raw : Value) : Except Fault Value :=
  if raw.isNull then .ok .null
  else do
    let s ← rawText raw
    match type with
    | .number => return if s.isEmpty then .null else number s
    | .integer => leadingWhole s
    | .boolean => return .bool (s == "true" || s == "1" || s == "yes")
    | .dateOnly => dated dateText s
    | .dateTime => dated dateTimeText s
    | .registration => return .text (registration s)
    | .plain => return .text s

end StepGraph.Value
