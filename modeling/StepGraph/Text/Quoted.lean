import StepGraph.Text.Printable

/-!
Quoted text. The quote is single unless the text holds single quotes only; hidden characters are
written by their code point in two, four or eight places. Percent encoding writes every byte outside
a set of safe characters by its number.
-/
namespace StepGraph.Text

def hexDigits (width n : Nat) : List Char :=
  let ds := Nat.toDigits 16 n
  List.replicate (width - ds.length) '0' ++ ds

def codeEscape (c : Char) : List Char :=
  let n := c.toNat
  if n < 0x100 then '\\' :: 'x' :: hexDigits 2 n
  else if n < 0x10000 then '\\' :: 'u' :: hexDigits 4 n
  else '\\' :: 'U' :: hexDigits 8 n

def quotedChar (quote c : Char) : List Char :=
  if c == quote || c == '\\' then ['\\', c]
  else if c == '\n' then ['\\', 'n']
  else if c == '\r' then ['\\', 'r']
  else if c == '\t' then ['\\', 't']
  else if isPrintable c then [c]
  else codeEscape c

def quoteFor (cs : List Char) : Char :=
  if cs.contains '\'' && !cs.contains '"' then '"' else '\''

def quoted (s : String) : String :=
  let quote := quoteFor s.toList
  String.ofList (quote :: s.toList.flatMap (quotedChar quote) ++ [quote])

def quotedByte (quote : Char) (b : UInt8) : List Char :=
  let c := Char.ofNat b.toNat
  if c == quote || c == '\\' then ['\\', c]
  else if c == '\n' then ['\\', 'n']
  else if c == '\r' then ['\\', 'r']
  else if c == '\t' then ['\\', 't']
  else if 0x20 ≤ b.toNat && b.toNat < 0x7F then [c]
  else '\\' :: 'x' :: hexDigits 2 b.toNat

def quotedBytes (bs : ByteArray) : String :=
  let quote := quoteFor (bs.toList.map fun b => Char.ofNat b.toNat)
  String.ofList ('b' :: quote :: bs.toList.flatMap (quotedByte quote) ++ [quote])

end StepGraph.Text

namespace StepGraph.Http

def isUnreserved (c : Char) : Bool := c.isAlphanum || ['-', '.', '_', '~'].contains c

def byteEscape (b : UInt8) : List Char :=
  '%' :: (Text.hexDigits 2 b.toNat).map Char.toUpper

def percentWith (safe : Char → Bool) (s : String) : String :=
  String.ofList (s.toList.flatMap fun c =>
    if safe c then [c] else c.toString.toUTF8.toList.flatMap byteEscape)

def percent : String → String := percentWith isUnreserved

def hexDigit? (c : Char) : Option UInt8 :=
  ("0123456789abcdef".toList.idxOf? c.toLower).map UInt8.ofNat

def escapedBytes : List Char → List UInt8
  | '%' :: a :: b :: rest =>
    match hexDigit? a, hexDigit? b with
    | some x, some y => (x * 16 + y) :: escapedBytes rest
    | _, _ => '%'.toString.toUTF8.toList ++ escapedBytes (a :: b :: rest)
  | c :: rest => c.toString.toUTF8.toList ++ escapedBytes rest
  | [] => []

/-- Reads escapes back; escapes that make no text stay as they are. -/
def unescaped (s : String) : String :=
  (String.fromUTF8? ⟨(escapedBytes s.toList).toArray⟩).getD s

end StepGraph.Http
