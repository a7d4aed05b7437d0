/-!
Bytes as text in 64 characters. Reading is lenient: other characters are skipped, and a completed
padding ends the data.
-/
namespace StepGraph.Text.Base64

def alphabet : List Char :=
  "ABCDEFGHIJKLMNOPQRSTUVWXYZabcdefghijklmnopqrstuvwxyz0123456789+/".toList

def letter (n : Nat) : Char := alphabet.getD (n % 64) 'A'

def sextet? (c : Char) : Option Nat :=
  if 'A' ≤ c && c ≤ 'Z' then some (c.toNat - 'A'.toNat)
  else if 'a' ≤ c && c ≤ 'z' then some (c.toNat - 'a'.toNat + 26)
  else if '0' ≤ c && c ≤ '9' then some (c.toNat - '0'.toNat + 52)
  else if c == '+' then some 62
  else if c == '/' then some 63
  else none

def encodeBytes : List Nat → List Char
  | [] => []
  | [a] => [letter (a / 4), letter (a % 4 * 16), '=', '=']
  | [a, b] => [letter (a / 4), letter (a % 4 * 16 + b / 16), letter (b % 16 * 4), '=']
  | a :: b :: c :: rest =>
    letter (a / 4) :: letter (a % 4 * 16 + b / 16) :: letter (b % 16 * 4 + c / 64) :: letter c ::
      encodeBytes rest

def encode (b : ByteArray) : String := String.ofList (encodeBytes (b.toList.map (·.toNat)))

inductive Refusal where
  | padding
  | oneLeft (letters : Nat)
  | notAscii
  deriving DecidableEq, Repr

def Refusal.message : Refusal → String
  | .padding => "Incorrect padding"
  | .oneLeft n =>
    "Invalid base64-encoded string: number of data characters (" ++ toString n ++
      ") cannot be 1 more than a multiple of 4"
  | .notAscii => "string argument should contain only ASCII characters"

/-- Reads letters in groups of four. `pos` letters of the group are read, with the bits in `left`
not yet written; `pads` counts the padding in a row, and `done` holds the bytes, last one first. -/
def readFrom (pos left pads : Nat) (done : List Nat) : List Char → Except Refusal (List Nat)
  | [] =>
    if pos == 0 then .ok done.reverse
    else if pos == 1 then .error (.oneLeft (done.length / 3 * 4 + 1))
    else .error .padding
  | c :: rest =>
    if c == '=' then
      if 2 ≤ pos && 4 ≤ pos + (pads + 1) then .ok done.reverse
      else readFrom pos left (if 2 ≤ pos then pads + 1 else pads) done rest
    else
      match sextet? c with
      | none => readFrom pos left pads done rest
      | some n =>
        match pos with
        | 0 => readFrom 1 n 0 done rest
        | 1 => readFrom 2 (n % 16) 0 ((left * 4 + n / 16) :: done) rest
        | 2 => readFrom 3 (n % 4) 0 ((left * 16 + n / 4) :: done) rest
        | _ => readFrom 0 0 0 ((left * 64 + n) :: done) rest

def decode (s : String) : Except Refusal ByteArray :=
  if s.toList.all fun c => c.toNat < 0x80 then
    (readFrom 0 0 0 [] s.toList).map fun bs => ⟨(bs.map UInt8.ofNat).toArray⟩
  else .error .notAscii

end StepGraph.Text.Base64
