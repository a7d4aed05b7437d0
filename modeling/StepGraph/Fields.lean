import StepGraph.View
import StepGraph.Decimal.Read
import StepGraph.Text.Search

/-!
Checking submitted records field by field. All problems of a record are collected, each with the
place of its field and the name of the rule it breaks.
-/
namespace StepGraph

inductive Checked (α : Type) where
  | ok (x : α)
  | problems (ps : List FieldProblem)

namespace Checked

variable {α β : Type}

def map (f : α → β) : Checked α → Checked β
  | ok x => ok (f x)
  | problems ps => problems ps

def and (f : Checked (α → β)) (x : Checked α) : Checked β :=
  match f, x with
  | ok f, ok x => ok (f x)
  | ok _, problems ps => problems ps
  | problems ps, ok _ => problems ps
  | problems ps, problems qs => problems (ps ++ qs)

instance : Functor Checked := ⟨map, fun x => map fun _ => x⟩

instance : Applicative Checked where
  pure := ok
  seq f x := and f (x ())

def under (place : String) : Checked α → Checked α
  | ok x => ok x
  | problems ps => problems (ps.map fun p => { p with place := place :: p.place })

def toExcept (record : String) : Checked α → Except Fault α
  | ok x => .ok x
  | problems ps => .error (.fields record ps)

end Checked

abbrev Rule (α : Type) := Value → Except String α

namespace Rule

variable {α : Type}

def any : Rule Value := .ok

def utf8? (b : ByteArray) : Option String := String.fromUTF8? b

def text : Rule String
  | .text s => .ok s
  | .bytes b =>
    match utf8? b with
    | some s => .ok s
    | none => .error "string_unicode"
  | _ => .error "string_type"

def filledText : Rule String := fun v =>
  match text v with
  | .ok s => if s.isEmpty then .error "string_too_short" else .ok s
  | .error r => .error r

def groupedDigits (cs : List Char) : Option (List Char) :=
  let joined := Decimal.joinGroups cs
  if !joined.isEmpty && joined.all fun c => '0' ≤ c && c ≤ '9' then some joined else none

/-- A whole number in text; a fraction of zeros is allowed. -/
def wholeText (s : String) : Except String Int :=
  let signed := Decimal.takeSign (Decimal.trimmedChars s)
  let front := signed.2.takeWhile (· != '.')
  let fraction := (signed.2.dropWhile (· != '.')).drop 1
  match groupedDigits front with
  | none => .error "int_parsing"
  | some ds =>
    if !fraction.all (· == '0') then .error "int_parsing"
    else if Decimal.maxDigits < ds.length then .error "int_parsing_size"
    else
      let n : Int := Text.digitsToNat ds
      .ok (if signed.1 then -n else n)

def whole : Rule Int
  | .int i => .ok i
  | .bool b => .ok (if b then 1 else 0)
  | .float x =>
    match Decimal.Reading.ofFloat x with
    | .finite d =>
      if !d.isWhole then .error "int_from_float"
      else if d.truncate.natAbs < twoTo 63 then .ok d.truncate
      else .error "int_parsing_size"
    | _ => .error "finite_number"
  | .text s => wholeText s
  | .bytes b =>
    match utf8? b with
    | some s => wholeText s
    | none => .error "int_parsing"
  | _ => .error "int_type"

def object : Rule (Entries Value)
  | .object es => .ok es
  | _ => .error "dict_type"

def optional (r : Rule α) : Rule (Option α) := fun v =>
  if v.isNull then .ok none else some <$> r v

/-- Values that count as false give way to a default before the rule is asked. -/
def orElse (r : Rule α) (default : Value) : Rule α := fun v => r (v.orElse default)

def truth : Rule Bool := fun v => .ok v.truthy

def visibleText : Rule String := fun v => do
  let s ← filledText v
  if Text.isBlankText s then throw "value_error" else return s

end Rule

namespace Entries

variable {α : Type}

def check (r : Rule α) (place : String) (v : Value) : Checked α :=
  match r v with
  | .ok x => .ok x
  | .error rule => .problems [⟨[place], rule⟩]

def spelled? (es : Entries Value) (names : List String) : Option (String × Value) :=
  names.findSome? fun n => (get? es n).map fun v => (n, v)

/-- A missing field is reported in its first spelling. -/
def requiredIn (es : Entries Value) (names : List String) (r : Rule α) : Checked α :=
  match spelled? es names with
  | some (n, v) => check r n v
  | none => .problems [⟨names.take 1, "missing"⟩]

def required (es : Entries Value) (name : String) (r : Rule α) : Checked α := requiredIn es [name] r

def withDefault (es : Entries Value) (names : List String) (default : α) (r : Rule α) : Checked α :=
  match spelled? es names with
  | some (n, v) => check r n v
  | none => .ok default

def optional (es : Entries Value) (names : List String) (r : Rule α) : Checked (Option α) :=
  withDefault es names none r.optional

end Entries

end StepGraph
