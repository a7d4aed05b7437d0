import StepGraph.View
import StepGraph.Decimal.Read

/-!
Two texts of a value. `asText` is what a template inserts: words in lower case, whole numbers
without a point, containers as compact document text. `display` is the long form for people:
words capitalised, texts inside containers quoted.
-/
namespace StepGraph.Value

/-- A whole double is written as the whole number it is. -/
def floatText (x : Float) : String :=
  match Decimal.Reading.ofFloat x with
  | .finite d => if d.isWhole then toString d.truncate else Decimal.showFloat x
  | _ => Decimal.showFloat x

def intText (i : Int) : Except Fault String :=
  if i.natAbs < Json.writtenLimit then .ok (toString i) else .error (.invalid Json.tooManyDigitsToWrite)

def asText : Value → Except Fault String
  | .scalar s =>
    match s with
    | .null => .ok "null"
    | .bool b => .ok (if b then "true" else "false")
    | .int i => intText i
    | .float x => .ok (floatText x)
    | .text t => .ok t
    | .bytes b => .ok (Text.quotedBytes b)
    | .moment t => .ok (t.isoWith " ")
  | v => v.json Json.compact

def scalarDisplay : Scalar → String
  | .null => "None"
  | .bool b => if b then "True" else "False"
  | .int i => toString i
  | .float x => Decimal.showFloat x
  | .text t => Text.quoted t
  | .bytes b => Text.quotedBytes b
  | .moment t => t.isoWith " "

mutual

def shown : Value → String
  | .scalar s => scalarDisplay s
  | .list [] => "[]"
  | .list (x :: rest) => "[" ++ shown x ++ shownItems rest ++ "]"
  | .object [] => "\x7b\x7d"
  | .object ((k, v) :: rest) =>
    "\x7b" ++ Text.quoted k ++ ": " ++ shown v ++ shownEntries rest ++ "\x7d"

def shownItems : List Value → String
  | [] => ""
  | x :: rest => ", " ++ shown x ++ shownItems rest

def shownEntries : List (String × Value) → String
  | [] => ""
  | (k, v) :: rest => ", " ++ Text.quoted k ++ ": " ++ shown v ++ shownEntries rest

end

def display (v : Value) : Except Fault String :=
  match v with
  | .text t => .ok t
  | _ =>
    match Json.fault? false v with
    | some u => .error u.fault
    | none => .ok (shown v)

def textOrEmpty (v : Value) : Except Fault String :=
  if v.isNull then .ok "" else v.asText

end StepGraph.Value
