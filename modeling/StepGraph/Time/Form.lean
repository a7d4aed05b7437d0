import StepGraph.Time.Iso
import StepGraph.Time.Mail

/-!
Dates written by people in a few customary forms, and the order in which all forms are tried: ISO
8601 first, then mail dates, then the customary forms.
-/
namespace StepGraph.Time.Form

open Text

inductive Part where
  | year
  | month
  | day
  | hour
  | minute
  | second
  | shortName
  | longName
  | blanks
  | mark (c : Char)

abbrev Shape := List Part

def slashed : Shape := [.month, .mark '/', .day, .mark '/', .year]

def shapes : List Shape :=
  [slashed,
   slashed ++ [.blanks, .hour, .mark ':', .minute],
   slashed ++ [.blanks, .hour, .mark ':', .minute, .mark ':', .second],
   [.year, .mark '/', .month, .mark '/', .day],
   [.shortName, .blanks, .day, .blanks, .year],
   [.longName, .blanks, .day, .mark ',', .blanks, .year]]

/-- One character of a number: a fixed digit range, or any decimal digit. -/
inductive Place where
  | range (low high : Char)
  | digit
  | blank

def Place.value? (p : Place) (c : Char) : Option Nat :=
  match p with
  | .range low high => if low ≤ c && c ≤ high then some (c.toNat - '0'.toNat) else none
  | .digit => digit? c
  | .blank => if c == ' ' then some 0 else none

def spellings : Part → List (List Place)
  | .year => [[.digit, .digit, .digit, .digit]]
  | .month => [[.range '1' '1', .range '0' '2'], [.range '0' '0', .range '1' '9'], [.range '1' '9']]
  | .day =>
    [[.range '3' '3', .range '0' '1'], [.range '1' '2', .digit], [.range '0' '0', .range '1' '9'],
     [.range '1' '9'], [.blank, .range '1' '9']]
  | .hour => [[.range '2' '2', .range '0' '3'], [.range '0' '1', .digit], [.digit]]
  | .minute => [[.range '0' '5', .digit], [.digit]]
  | .second => [[.range '6' '6', .range '0' '1'], [.range '0' '5', .digit], [.digit]]
  | _ => []

def takePlaces (n : Nat) : List Place → List Char → Option (Nat × List Char)
  | [], cs => some (n, cs)
  | _ :: _, [] => none
  | p :: ps, c :: cs => (p.value? c).bind fun d => takePlaces (10 * n + d) ps cs

def shortNames : List String := Mail.monthNames.take 12

def longNames : List String :=
  ["september", "february", "november", "december", "january", "october", "august", "march",
   "april", "june", "july", "may"]

def takeName (names : List String) (cs : List Char) : List (Nat × List Char) :=
  names.filterMap fun name =>
    if (cs.take name.length).map Char.toLower == name.toList then
      (Mail.month? name).map fun m => (m, cs.drop name.length)
    else none

def takeBlanks (cs : List Char) : List (List Char) :=
  ((List.range (cs.takeWhile isBlank).length).map fun k => cs.drop (k + 1)).reverse

structure Fields where
  year : Nat := 1900
  month : Nat := 1
  day : Nat := 1
  hour : Nat := 0
  minute : Nat := 0
  second : Nat := 0

def Fields.set (f : Fields) (p : Part) (n : Nat) : Fields :=
  match p with
  | .year => { f with year := n }
  | .month => { f with month := n }
  | .shortName => { f with month := n }
  | .longName => { f with month := n }
  | .day => { f with day := n }
  | .hour => { f with hour := n }
  | .minute => { f with minute := n }
  | .second => { f with second := n }
  | _ => f

def takePart (f : Fields) (p : Part) (cs : List Char) : List (Fields × List Char) :=
  match p with
  | .mark c => if cs.head? == some c then [(f, cs.drop 1)] else []
  | .blanks => (takeBlanks cs).map fun rest => (f, rest)
  | .shortName => (takeName shortNames cs).map fun r => (f.set p r.1, r.2)
  | .longName => (takeName longNames cs).map fun r => (f.set p r.1, r.2)
  | p => (spellings p).filterMap fun ps => (takePlaces 0 ps cs).map fun r => (f.set p r.1, r.2)

def takeShape (f : Fields) : Shape → List Char → Option (Fields × List Char)
  | [], cs => some (f, cs)
  | p :: ps, cs => (takePart f p cs).findSome? fun r => takeShape r.1 ps r.2

def Shape.read? (shape : Shape) (s : String) : Option Moment :=
  match takeShape {} shape s.toList with
  | some (f, []) =>
    Iso.moment? (f.year, f.month, f.day) ⟨f.hour, f.minute, f.second, 0⟩ none
  | _ => none

def zeroOffset (s : String) : String := if endsWith s "Z" then dropBack 1 s ++ "+00:00" else s

def readMoment (s : String) : Except Fault (Option Moment) :=
  match Iso.read? (zeroOffset s) with
  | some t => .ok (some t)
  | none =>
    match Mail.read s with
    | .error f => .error f
    | .ok (some t) => .ok (some t)
    | .ok none => .ok (shapes.findSome? (·.read? s))

end StepGraph.Time.Form
