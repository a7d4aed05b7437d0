import StepGraph.Attempt
import StepGraph.Decimal.Places
import StepGraph.Value.Text

/-!
Messages with places for arguments. A place begins with a percent sign and says how its argument
is written: as text, as a whole number, as a decimal or as one character. A message that comes
without arguments has no places and stays as it is.
-/
namespace StepGraph.Logging

/-- How the argument of a place is laid out. -/
structure Place where
  left : Bool := false
  plus : Bool := false
  blank : Bool := false
  /-- Base marks and idle decimal points are written too. -/
  full : Bool := false
  zeros : Bool := false
  width : Nat := 0
  precision : Option Nat := none

structure Reader where
  rest : List Char
  /-- One object as the only argument; its entries can be asked for by name. -/
  named : Option (Entries Value)
  arguments : List Value

abbrev Reading (α : Type) := Attempt Reader α

namespace Reading

def incomplete : Fault := .invalid "incomplete format"

def peek : Reading Char := do
  match (← get).rest with
  | c :: _ => return c
  | [] => throw incomplete

def skip : Reading Unit := modify fun r => { r with rest := r.rest.drop 1 }

def argument : Reading Value := do
  let r ← get
  match r.arguments with
  | v :: rest => set { r with arguments := rest }; return v
  | [] => throw .wrongKind

def whole : Reading Int := do
  match ← argument with
  | .int i => return i
  | .bool b => return if b then 1 else 0
  | _ => throw .wrongKind

/-- Takes a name up to the parenthesis that closes it; `depth` parentheses are open inside. -/
def takeName (depth : Nat) (name : List Char) : List Char → Option (String × List Char)
  | [] => none
  | ')' :: rest =>
    match depth with
    | 0 => some (String.ofList name, rest)
    | d + 1 => takeName d (name ++ [')']) rest
  | c :: rest => takeName (if c == '(' then depth + 1 else depth) (name ++ [c]) rest

/-- A name makes the entry of that name the next argument. -/
def name : Reading Unit := do
  let r ← get
  match r.rest, r.named with
  | '(' :: _, none => throw .wrongKind
  | '(' :: rest, some es =>
    match takeName 0 [] rest with
    | none => throw (.invalid "incomplete format key")
    | some (k, rest) =>
      match es.get? k with
      | some v => set { r with rest := rest, arguments := [v] }
      | none => throw (.misuse .missingKey)
  | _, _ => return ()

def addFlag (p : Place) (c : Char) : Place :=
  match c with
  | '-' => { p with left := true }
  | '+' => { p with plus := true }
  | ' ' => { p with blank := true }
  | '#' => { p with full := true }
  | _ => { p with zeros := true }

def flags : Reading Place := do
  let r ← get
  let isFlag (c : Char) : Bool := ['-', '+', ' ', '#', '0'].contains c
  set { r with rest := r.rest.dropWhile isFlag }
  return (r.rest.takeWhile isFlag).foldl addFlag {}

def number : Reading Nat := do
  let r ← get
  set { r with rest := r.rest.dropWhile Char.isDigit }
  return Nat.ofDigitChars 10 (r.rest.takeWhile Char.isDigit) 0

def width (p : Place) : Reading Place := do
  if (← peek) == '*' then
    skip
    let w ← whole
    return { p with width := w.natAbs, left := p.left || w < 0 }
  else return { p with width := ← number }

def precision (p : Place) : Reading Place := do
  if (← peek) != '.' then return p
  skip
  if (← peek) == '*' then
    skip
    return { p with precision := some (← whole).toNat }
  else return { p with precision := some (← number) }

def sizeMark : Reading Unit := do
  if ['h', 'l', 'L'].contains (← peek) then skip

end Reading

namespace Place

def padded (p : Place) (fill : Char) (sign body : List Char) : List Char :=
  let missing := p.width - (sign.length + body.length)
  if p.left then sign ++ body ++ List.replicate missing ' '
  else if fill == ' ' then List.replicate missing ' ' ++ sign ++ body
  else sign ++ List.replicate missing fill ++ body

def sign (p : Place) (negative : Bool) : List Char :=
  if negative then ['-'] else if p.plus then ['+'] else if p.blank then [' '] else []

def number (p : Place) (negative : Bool) (mark body : List Char) : List Char :=
  p.padded (if p.zeros then '0' else ' ') (p.sign negative ++ mark) body

def text (p : Place) (s : String) : List Char :=
  p.padded ' ' [] (match p.precision with
    | some n => s.toList.take n
    | none => s.toList)

def inBase (p : Place) (base : Nat) (letter : Char) (i : Int) : List Char :=
  let ds := Nat.toDigits base i.natAbs
  let ds := List.replicate (p.precision.getD 0 - ds.length) '0' ++ ds
  p.number (i < 0) (if p.full && base != 10 then ['0', letter] else [])
    (if letter == 'X' then ds.map Char.toUpper else ds)

def decimal (p : Place) (l : Decimal.Layout) (upper : Bool) (x : Float) : List Char :=
  let (negative, body) : Bool × List Char :=
    match Decimal.Reading.ofFloat x with
    | .nan => (false, ['n', 'a', 'n'])
    | .infinite negative => (negative, ['i', 'n', 'f'])
    | .finite d => (d.negative, l.digits p.full d.fraction.1 d.fraction.2 (p.precision.getD 6))
  p.number negative [] (if upper then body.map Char.toUpper else body)

end Place

/-- Decimals count as whole numbers without what stands behind their point. -/
def wholeOf : Value → Except Fault Int
  | .int i => do
    let _ ← Value.intText i
    return i
  | .bool b => .ok (if b then 1 else 0)
  | .float x =>
    match Decimal.Reading.ofFloat x with
    | .finite d => .ok d.truncate
    | .nan => .error (.invalid "cannot convert float NaN to integer")
    | .infinite _ => .error (.misuse .tooLarge)
  | _ => .error .wrongKind

def exactWholeOf : Value → Except Fault Int
  | .int i => .ok i
  | .bool b => .ok (if b then 1 else 0)
  | _ => .error .wrongKind

def decimalOf : Value → Except Fault Float
  | .float x => .ok x
  | .bool b => .ok (if b then 1.0 else 0.0)
  | .int i =>
    match Decimal.ofInt? i with
    | some x => .ok x
    | none => .error (.misuse .tooLarge)
  | _ => .error .wrongKind

def characterOf : Value → Except Fault Char
  | .int i =>
    if 0 ≤ i && i < 0x110000 then .ok (Char.ofNat i.toNat) else .error (.misuse .tooLarge)
  | .text s =>
    match s.toList with
    | [c] => .ok c
    | _ => .error .wrongKind
  | _ => .error .wrongKind

def quotedOf (ascii : Bool) (v : Value) : Except Fault String := do
  let _ ← v.display
  let plain (c : Char) : List Char := if c.toNat < 0x80 then [c] else Text.codeEscape c
  return if ascii then String.ofList (v.shown.toList.flatMap plain) else v.shown

def unsupported (c : Char) (index : Nat) : Fault :=
  let shown := if ' ' ≤ c && c ≤ '~' then c else '?'
  .invalid ("unsupported format character '" ++ shown.toString ++ "' (0x" ++
    String.ofList (Nat.toDigits 16 c.toNat) ++ ") at index " ++ toString index)

def written (p : Place) (letter : Char) (index : Nat) (v : Value) : Except Fault (List Char) :=
  match letter with
  | 's' => p.text <$> v.display
  | 'r' => p.text <$> quotedOf false v
  | 'a' => p.text <$> quotedOf true v
  | 'd' | 'i' | 'u' => p.inBase 10 'd' <$> wholeOf v
  | 'x' | 'X' => p.inBase 16 letter <$> exactWholeOf v
  | 'o' => p.inBase 8 'o' <$> exactWholeOf v
  | 'f' | 'F' => p.decimal .positional (letter == 'F') <$> decimalOf v
  | 'e' | 'E' => p.decimal .exponent (letter == 'E') <$> decimalOf v
  | 'g' | 'G' => p.decimal .shorter (letter == 'G') <$> decimalOf v
  | 'c' => (fun c => { p with precision := none }.text c.toString) <$> characterOf v
  | c => .error (unsupported c index)

def place (total : Nat) : Reading (List Char) := do
  if (← Reading.peek) == '%' then
    Reading.skip
    return ['%']
  Reading.name
  let p ← Reading.precision (← Reading.width (← Reading.flags))
  Reading.sizeMark
  let letter ← Reading.peek
  let index := total - (← get).rest.length
  Reading.skip
  let v ← Reading.argument
  Attempt.of (written p letter index v)

/-- Reads on; every turn takes at least one character, so `fuel` is the length of the message. -/
def fillFrom (total : Nat) : Nat → Reading (List Char)
  | 0 => return []
  | fuel + 1 => do
    let r ← get
    match r.rest with
    | [] => return []
    | '%' :: _ =>
      Reading.skip
      let here ← place total
      return here ++ (← fillFrom total fuel)
    | c :: _ =>
      Reading.skip
      return c :: (← fillFrom total fuel)

def filled (message : String) (arguments : List Value) : Except Fault String := do
  if arguments.isEmpty then return message
  let named : Option (Entries Value) :=
    match arguments with
    | [.object (e :: es)] => some (e :: es)
    | _ => none
  let cs := message.toList
  let (r, rest) := (fillFrom cs.length cs.length).run ⟨cs, named, arguments⟩
  let text ← r
  if named.isNone && !rest.arguments.isEmpty then throw .wrongKind
  return String.ofList text

end StepGraph.Logging
