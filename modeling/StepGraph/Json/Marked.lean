import StepGraph.Decimal.Read
import StepGraph.Decimal.Shortest
import StepGraph.Text.Base64
import StepGraph.Time.Iso
import StepGraph.View

/-!
Documents that can say every value. Large whole numbers, doubles, bytes and moments, which plain
documents lack or blur, are written as objects with one marked key.
-/
namespace StepGraph.Marked

def intKey : String := "$int"
def floatKey : String := "$float"
def bytesKey : String := "$bytes"
def momentKey : String := "$datetime"

/-- Whole numbers up to here stand for themselves. -/
def plainLimit : Nat := twoTo 53

def markedWith (key text : String) : Value := .object [(key, .text text)]

def encodeScalar : Scalar → Value
  | .int i => if i.natAbs ≤ plainLimit then .int i else markedWith intKey (toString i)
  | .float x => markedWith floatKey (Decimal.showFloat x)
  | .bytes b => markedWith bytesKey (Text.Base64.encode b)
  | .moment t => markedWith momentKey t.iso
  | s => .scalar s

mutual

def encode : Value → Value
  | .scalar s => encodeScalar s
  | .list xs => .list (encodeItems xs)
  | .object es => .object (encodeEntries es)

def encodeItems : List Value → List Value
  | [] => []
  | x :: rest => encode x :: encodeItems rest

def encodeEntries : List (String × Value) → List (String × Value)
  | [] => []
  | (k, x) :: rest => (k, encode x) :: encodeEntries rest

end

def readMarked? (key text : String) : Option Scalar :=
  if key == intKey then text.toInt?.map .int
  else if key == floatKey then (Decimal.readFloat? text).map .float
  else if key == bytesKey then (Text.Base64.decode text).toOption.map .bytes
  else if key == momentKey then (Time.Iso.read? text).map .moment
  else none

def marked? : List (String × Value) → Option Scalar
  | [(k, .text s)] => readMarked? k s
  | _ => none

mutual

def decode : Value → Value
  | .scalar s => .scalar s
  | .list xs => .list (decodeItems xs)
  | .object es =>
    match marked? es with
    | some s => .scalar s
    | none => .object (decodeEntries es)

def decodeItems : List Value → List Value
  | [] => []
  | x :: rest => decode x :: decodeItems rest

def decodeEntries : List (String × Value) → List (String × Value)
  | [] => []
  | (k, x) :: rest => (k, decode x) :: decodeEntries rest

end

end StepGraph.Marked
