import StepGraph.Decimal.Binary64
import StepGraph.Time.Moment

/-!
Dates and times in the forms of ISO 8601: calendar and week dates with or without separators, any
character between date and time, and an optional offset. The text is read byte by byte, because
places count bytes.
-/
namespace StepGraph.Time.Iso

def isFigure (c : Char) : Bool := '0' ≤ c && c ≤ '9'

def figures (cs : List Char) : Nat := cs.foldl (fun n c => 10 * n + (c.toNat - '0'.toNat)) 0

def takeFigures (n : Nat) (cs : List Char) : Option (Nat × List Char) :=
  let ds := cs.take n
  if ds.length == n && ds.all isFigure then some (figures ds, cs.drop n) else none

def expect (c : Char) : List Char → Option (List Char)
  | d :: rest => if d == c then some rest else none
  | [] => none

/-- Where the date ends. Only the fifth and sixth character tell the form; for week dates without
separators the count of digits decides. -/
def dateSize? (cs : List Char) : Option Nat :=
  let size := cs.length
  if size < 7 then none
  else if size == 7 then some 7
  else if cs[4]? == some '-' then
    if cs[5]? == some 'W' then
      if cs[8]? == some '-' then
        if size == 9 then none
        else if (cs[10]?).any isFigure then some 8
        else some 10
      else some 8
    else some 10
  else if cs[4]? == some 'W' then
    let stop := 7 + ((cs.drop 7).takeWhile isFigure).length
    if stop < 9 then some stop else if stop % 2 == 0 then some 7 else some 8
  else some 8

def firstMonday (y : Nat) : Int :=
  let first := dayNumber y 1 1
  let w := weekday first
  (first : Int) - w + (if w > 3 then 7 else 0)

def weeksOf (y : Nat) : Nat :=
  let w := weekday (dayNumber y 1 1)
  if w == 3 || (w == 2 && isLeap y) then 53 else 52

def ofWeek? (y week d : Nat) : Option (Nat × Nat × Nat) :=
  if 1 ≤ y && y ≤ 9999 && 1 ≤ week && week ≤ weeksOf y && 1 ≤ d && d ≤ 7 then
    let n := firstMonday y + ((week - 1) * 7 + (d - 1) : Nat)
    if n < 1 then none else some (dateOfDay n.toNat)
  else none

def readDate? (size : Nat) (cs : List Char) : Option (Nat × Nat × Nat) := do
  let (y, rest) ← takeFigures 4 cs
  let dashed := rest.head? == some '-'
  let rest := if dashed then rest.drop 1 else rest
  match rest with
  | 'W' :: rest =>
    let (week, rest) ← takeFigures 2 rest
    if cs.length - rest.length < size then
      let rest ← if dashed then expect '-' rest else some rest
      let (d, _) ← takeFigures 1 rest
      ofWeek? y week d
    else ofWeek? y week 1
  | _ =>
    let (m, rest) ← takeFigures 2 rest
    let rest ← if dashed then expect '-' rest else some rest
    let (d, rest) ← takeFigures 2 rest
    if cs.length - rest.length == size then some (y, m, d) else none

structure Clock where
  hour : Nat := 0
  minute : Nat := 0
  second : Nat := 0
  micro : Nat := 0

def Clock.set (c : Clock) (part n : Nat) : Clock :=
  match part with
  | 0 => { c with hour := n }
  | 1 => { c with minute := n }
  | _ => { c with second := n }

abbrev ReadClock := Option (Clock × Bool)

def readFraction (c : Clock) (inside behind : List Char) : ReadClock := do
  let size := min inside.length 6
  let (n, rest) ← takeFigures size inside
  let left := (rest ++ behind).dropWhile isFigure
  some ({ c with micro := n * tenTo (6 - size) }, !left.isEmpty)

/-- Hours, minutes and seconds, separated as the first separator says, then a fraction. `inside` is
the text of the clock and `behind` what follows it. -/
def readClockFrom (behind : List Char) (colons : Bool) (c : Clock) : Nat → List Char → ReadClock
  | 0, inside => readFraction c inside behind
  | left + 1, inside => do
    let part := 2 - left
    let (n, rest) ← takeFigures 2 inside
    let c := c.set part n
    match rest with
    | [] => some (c, !behind.isEmpty)
    | mark :: more =>
      let colons := if part == 0 then mark == ':' else colons
      if more.isEmpty then some (c, true)
      else if colons && mark == ':' then readClockFrom behind colons c left more
      else if mark == '.' || mark == ',' then readFraction c more behind
      else if !colons then readClockFrom behind colons c left rest
      else none

def readClock (inside behind : List Char) : ReadClock := readClockFrom behind false {} 3 inside

def isOffsetMark (c : Char) : Bool := c == '+' || c == '-' || c == 'Z'

def Clock.micros (c : Clock) : Int :=
  ((c.hour * 60 + c.minute) * 60 + c.second : Nat) * Time.second + c.micro

/-- An offset of less than a second counts as none. -/
def offsetOf (sign : Char) (c : Clock) : Int :=
  if c.micros < Time.second then 0 else if sign == '-' then -c.micros else c.micros

def readTime? (cs : List Char) : Option (Clock × Option Int) := do
  let inside := cs.takeWhile fun c => !isOffsetMark c
  let behind := cs.drop inside.length
  let (clock, left) ← readClock inside behind
  match behind with
  | [] => if left then none else some (clock, none)
  | ['Z'] => some (clock, some 0)
  | 'Z' :: _ => none
  | sign :: zone =>
    let (shift, left) ← readClock zone []
    if left then none else some (clock, some (offsetOf sign shift))

def validClock (c : Clock) : Bool := c.hour < 24 && c.minute < 60 && c.second < 60

def validOffset (o : Option Int) : Bool := o.all fun n => n.natAbs < 86400000000

def moment? (date : Nat × Nat × Nat) (c : Clock) (o : Option Int) : Option Moment :=
  let (y, m, d) := date
  if validDate y m d && validClock c && validOffset o then
    some ⟨y, m, d, c.hour, c.minute, c.second, c.micro, o⟩
  else none

def byteChars (s : String) : List Char := s.toUTF8.toList.map fun b => Char.ofNat b.toNat

/-- How many bytes the character at the separator takes. -/
def separatorSize (cs : List Char) : Nat :=
  match cs.head? with
  | some c =>
    if c.toNat < 0x80 then 1
    else if c.toNat / 16 == 0xE then 3
    else if c.toNat / 16 == 0xF then 4
    else 2
  | none => 1

def read? (s : String) : Option Moment := do
  let cs := byteChars s
  let size ← dateSize? cs
  let date ← readDate? size cs
  let rest := cs.drop size
  if rest.isEmpty then moment? date {} none
  else
    let (clock, offset) ← readTime? (rest.drop (separatorSize rest))
    moment? date clock offset

end StepGraph.Time.Iso
