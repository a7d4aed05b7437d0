import StepGraph.Json.Syntax
import StepGraph.Decimal.Read
import StepGraph.Value

/-!
Reading document text. Numbers with a point or an exponent are doubles, the words for infinity and
for no number are accepted, and of a repeated key the last value stands at the first place.
-/
namespace StepGraph.Json

structure Cursor where
  place : Nat
  rest : List Char

inductive Stop where
  | complaint (c : Complaint) (place : Nat)
  | tooManyDigits (count : Nat)
  | tooDeep

abbrev Read (α : Type) := Except Stop (α × Cursor)

def isGap (c : Char) : Bool := c == ' ' || c == '\t' || c == '\n' || c == '\r'

def Cursor.skipGaps (c : Cursor) : Cursor :=
  ⟨c.place + (c.rest.takeWhile isGap).length, c.rest.dropWhile isGap⟩

def Cursor.advance (c : Cursor) (n : Nat) : Cursor := ⟨c.place + n, c.rest.drop n⟩

def hexValue? (c : Char) : Option Nat :=
  if '0' ≤ c && c ≤ '9' then some (c.toNat - '0'.toNat)
  else if 'a' ≤ c && c ≤ 'f' then some (c.toNat - 'a'.toNat + 10)
  else if 'A' ≤ c && c ≤ 'F' then some (c.toNat - 'A'.toNat + 10)
  else none

def unit? : List Char → Option (Nat × List Char)
  | a :: b :: c :: d :: e :: rest =>
    match hexValue? a, hexValue? b, hexValue? c, hexValue? d with
    | some a, some b, some c, some d => some (((a * 16 + b) * 16 + c) * 16 + d, e :: rest)
    | _, _, _, _ => none
  | _ => none

/-- Two units of a surrogate pair make one character; any other unit stands for itself. -/
def joinUnits (high low : Nat) : Char := Char.ofNat (0x10000 + (high - 0xD800) * 0x400 + (low - 0xDC00))

def loneUnit (n : Nat) : Char := if 0xD800 ≤ n && n < 0xE000 then Char.ofNat 0xFFFD else Char.ofNat n

def plainEscape? : Char → Option Char
  | '"' => some '"'
  | '\\' => some '\\'
  | '/' => some '/'
  | 'b' => some '\x08'
  | 'f' => some '\x0c'
  | 'n' => some '\n'
  | 'r' => some '\r'
  | 't' => some '\t'
  | _ => none

/-- The characters of a text up to its closing quote; `start` is the place of the opening one. The
fuel is the length of what is left. -/
def readText (start : Nat) : Nat → Nat → List Char → List Char → Read String
  | 0, _, _, _ => .error (.complaint .unterminated start)
  | fuel + 1, place, done, cs =>
    match cs with
    | [] => .error (.complaint .unterminated start)
    | '"' :: rest => .ok (String.ofList done.reverse, ⟨place + 1, rest⟩)
    | '\\' :: 'u' :: rest =>
      match unit? rest with
      | none => .error (.complaint .unicodeEscape (place + 1))
      | some (high, after) =>
        match after with
        | '\\' :: 'u' :: more =>
          if 0xD800 ≤ high && high < 0xDC00 && 4 < more.length then
            match unit? more with
            | none => .error (.complaint .unicodeEscape (place + 7))
            | some (low, last) =>
              if 0xDC00 ≤ low && low < 0xE000 then
                readText start fuel (place + 12) (joinUnits high low :: done) last
              else readText start fuel (place + 6) (loneUnit high :: done) after
          else readText start fuel (place + 6) (loneUnit high :: done) after
        | _ => readText start fuel (place + 6) (loneUnit high :: done) after
    | ['\\'] => .error (.complaint .unterminated start)
    | '\\' :: c :: rest =>
      match plainEscape? c with
      | some e => readText start fuel (place + 2) (e :: done) rest
      | none => .error (.complaint .escape place)
    | c :: rest =>
      if c.toNat < 0x20 then .error (.complaint .control place)
      else readText start fuel (place + 1) (c :: done) rest

def isAsciiDigit (c : Char) : Bool := '0' ≤ c && c ≤ '9'

structure NumberText where
  whole : List Char
  fraction : List Char
  exponent : Option Int
  size : Nat

def fractionOf : List Char → List Char
  | '.' :: rest => rest.takeWhile isAsciiDigit
  | _ => []

def exponentOf (cs : List Char) : Option (Int × Nat) :=
  match cs with
  | [] => none
  | c :: rest =>
    if c == 'e' || c == 'E' then
      let signed := Decimal.takeSign rest
      let digits := signed.2.takeWhile isAsciiDigit
      if digits.isEmpty then none
      else
        let n : Int := Text.digitsToNat digits
        some (if signed.1 then -n else n, 1 + (rest.length - signed.2.length) + digits.length)
    else none

def numberText? (cs : List Char) : Option NumberText :=
  let whole :=
    match cs with
    | '0' :: _ => ['0']
    | _ => cs.takeWhile isAsciiDigit
  if whole.isEmpty then none
  else
    let rest := cs.drop whole.length
    let fraction := fractionOf rest
    let used := whole.length + (if fraction.isEmpty then 0 else fraction.length + 1)
    match exponentOf (cs.drop used) with
    | some (e, n) => some ⟨whole, fraction, some e, used + n⟩
    | none => some ⟨whole, fraction, none, used⟩

def readNumber (c : Cursor) : Read Value :=
  let signed : Bool × List Char :=
    match c.rest with
    | '-' :: rest => (true, rest)
    | cs => (false, cs)
  match numberText? signed.2 with
  | none => .error (.complaint .value c.place)
  | some n =>
    let next := c.advance (n.size + if signed.1 then 1 else 0)
    if n.fraction.isEmpty && n.exponent.isNone then
      if Decimal.maxDigits < n.whole.length then .error (.tooManyDigits n.whole.length)
      else
        let i : Int := Text.digitsToNat n.whole
        .ok (.int (if signed.1 then -i else i), next)
    else
      let digits := Text.digitsToNat (n.whole ++ n.fraction)
      .ok (.float (Decimal.ofDigits signed.1 digits (n.exponent.getD 0 - n.fraction.length)), next)

def words : List (String × Value) :=
  [("null", .null), ("true", .bool true), ("false", .bool false), ("NaN", .float Decimal.notANumber),
   ("Infinity", .float (Decimal.infinity false)), ("-Infinity", .float (Decimal.infinity true))]

def readWord? (c : Cursor) : Option (Value × Cursor) :=
  (words.find? fun w => w.1.toList.isPrefixOf c.rest).map fun w => (w.2, c.advance w.1.length)

def maxDepth : Nat := 990

mutual

def readValue (fuel : Nat) (depth : Nat) (c : Cursor) : Read Value :=
  match fuel with
  | 0 => .error .tooDeep
  | fuel + 1 =>
    match c.rest with
    | '"' :: rest =>
      match readText c.place (rest.length + 1) (c.place + 1) [] rest with
      | .ok (s, next) => .ok (.text s, next)
      | .error e => .error e
    | '{' :: rest =>
      if maxDepth ≤ depth then .error .tooDeep
      else
        let c := (Cursor.mk (c.place + 1) rest).skipGaps
        match c.rest with
        | '}' :: _ => .ok (.object [], c.advance 1)
        | _ => readEntries fuel (depth + 1) [] c
    | '[' :: rest =>
      if maxDepth ≤ depth then .error .tooDeep
      else
        let c := (Cursor.mk (c.place + 1) rest).skipGaps
        match c.rest with
        | ']' :: _ => .ok (.list [], c.advance 1)
        | _ => readItems fuel (depth + 1) [] c
    | _ =>
      match readWord? c with
      | some r => .ok r
      | none => readNumber c

def readItems (fuel : Nat) (depth : Nat) (done : List Value) (c : Cursor) : Read Value :=
  match fuel with
  | 0 => .error .tooDeep
  | fuel + 1 =>
    match readValue fuel depth c with
    | .error e => .error e
    | .ok (v, next) =>
      let c := next.skipGaps
      match c.rest with
      | ']' :: _ => .ok (.list (v :: done).reverse, c.advance 1)
      | ',' :: _ => readItems fuel depth (v :: done) (c.advance 1).skipGaps
      | _ => .error (.complaint .comma c.place)

def readEntries (fuel : Nat) (depth : Nat) (done : Entries Value) (c : Cursor) : Read Value :=
  match fuel with
  | 0 => .error .tooDeep
  | fuel + 1 =>
    match c.rest with
    | '"' :: rest =>
      match readText c.place (rest.length + 1) (c.place + 1) [] rest with
      | .error e => .error e
      | .ok (k, next) =>
        let c := next.skipGaps
        match c.rest with
        | ':' :: _ =>
          match readValue fuel depth (c.advance 1).skipGaps with
          | .error e => .error e
          | .ok (v, next) =>
            let c := next.skipGaps
            match c.rest with
            | '}' :: _ => .ok (.object (done.put k v), c.advance 1)
            | ',' :: _ => readEntries fuel depth (done.put k v) (c.advance 1).skipGaps
            | _ => .error (.complaint .comma c.place)
        | _ => .error (.complaint .colon c.place)
    | _ => .error (.complaint .name c.place)

end

def Stop.fault (text : List Char) : Stop → SyntaxFault
  | .complaint c place => .ofPlace c text place
  | .tooManyDigits n => .tooManyDigits n
  | .tooDeep => .tooDeep

def parse (s : String) : Except SyntaxFault Value :=
  let text := s.toList
  let outcome : Except Stop Value :=
    match text with
    | '\ufeff' :: _ => .error (.complaint .byteOrderMark 0)
    | _ =>
      match readValue (text.length + 2) 0 (Cursor.mk 0 text).skipGaps with
      | .error e => .error e
      | .ok (v, next) =>
        let c := next.skipGaps
        if c.rest.isEmpty then .ok v else .error (.complaint .extra c.place)
  outcome.mapError (Stop.fault text)

end StepGraph.Json
