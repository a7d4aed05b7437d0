import StepGraph.Decimal.Binary64
import StepGraph.Time.Moment
import StepGraph.Text.LetterCase
import StepGraph.Text.Search
import StepGraph.Path.Write

/-!
Dates as mail headers carry them: an optional day name, day, month, year, time and zone, with the
slips that mailers make (day and month swapped, points in the time, year and time swapped). A
number far outside every calendar is a fault, any other text that does not fit is no date.
-/
namespace StepGraph.Time.Mail

open Text

def monthNames : List String :=
  ["jan", "feb", "mar", "apr", "may", "jun", "jul", "aug", "sep", "oct", "nov", "dec",
   "january", "february", "march", "april", "may", "june", "july", "august", "september",
   "october", "november", "december"]

def dayNames : List String := ["mon", "tue", "wed", "thu", "fri", "sat", "sun"]

/-- Hours and minutes east of UTC, written as one number. -/
def zones : List (String × Int) :=
  [("UT", 0), ("UTC", 0), ("GMT", 0), ("Z", 0), ("AST", -400), ("ADT", -300), ("EST", -500),
   ("EDT", -400), ("CST", -600), ("CDT", -500), ("MST", -700), ("MDT", -600), ("PST", -800),
   ("PDT", -700)]

def wordsOf (s : String) : List String :=
  ((splitAt isBlank s.toList).filter (!·.isEmpty)).map String.ofList

def dropComma (s : String) : String := if endsWith s "," then dropBack 1 s else s

def afterComma (s : String) : String :=
  String.ofList (s.toList.reverse.takeWhile (· != ',')).reverse

def withoutDay : List String → List String
  | [] => []
  | w :: rest => if endsWith w "," || dayNames.contains (lower w) then rest else afterComma w :: rest

def splitDashed (ws : List String) : List String :=
  match ws with
  | [date, time, zone] =>
    let parts := split date "-"
    if parts.length == 3 then parts ++ [time, zone] else ws
  | _ => ws

/-- A time with its zone glued to it is cut before the sign. -/
def splitZone (ws : List String) : List String :=
  match ws with
  | [d, m, y, t] =>
    let cs := t.toList
    let sign := if cs.contains '+' then '+' else '-'
    let front := cs.takeWhile (· != sign)
    if front.isEmpty || front.length == cs.length then [d, m, y, t, ""]
    else [d, m, y, String.ofList front, String.ofList (cs.drop front.length)]
  | _ => ws

def month? (s : String) : Option Nat := (monthNames.idxOf? s).map fun i => i % 12 + 1

def clockParts? (tm : String) : Option (String × String × String) :=
  match split tm ":" with
  | [h, m] => some (h, m, "0")
  | [h, m, s] => some (h, m, s)
  | [t] =>
    match split t "." with
    | [h, m] => if t.toList.contains '.' then some (h, m, "0") else none
    | [h, m, s] => some (h, m, s)
    | _ => none
  | _ => none

def number? (s : String) : Option Int :=
  match Decimal.readWhole s with
  | .value i => some i
  | _ => none

def fullYear (y : Int) : Int := if y < 100 then (if 68 < y then y + 1900 else y + 2000) else y

/-- Seconds east of UTC; a zone that is unknown or `-0000` gives none. -/
def zoneSeconds? (tz : String) : Option Int :=
  let tz := upper tz
  let shift :=
    match zones.lookup tz with
    | some n => some n
    | none =>
      match number? tz with
      | some n => if n == 0 && startsWith tz "-" then none else some n
      | none => none
  shift.map fun n =>
    let size : Nat := n.natAbs / 100 * 3600 + n.natAbs % 100 * 60
    if n < 0 then -(size : Int) else size

structure Reading where
  year : Int
  month : Int
  day : Int
  hour : Int
  minute : Int
  second : Int
  zone : Option Int

def fits (i : Int) : Bool := -(twoTo 31) ≤ i && i < twoTo 31

def maxSpan : Nat := 999999999

def Reading.moment (r : Reading) : Except Fault (Option Moment) :=
  let days := (r.zone.getD 0).fdiv 86400
  if maxSpan < days.natAbs then .error (.misuse .tooLarge)
  else if r.zone.any fun n => 86400 ≤ n.natAbs then .ok none
  else if !([r.year, r.month, r.day, r.hour, r.minute, r.second].all fits) then
    .error (.misuse .tooLarge)
  else if 0 ≤ r.year && 0 ≤ r.day && validDate r.year.toNat r.month.toNat r.day.toNat &&
      0 ≤ r.hour && r.hour < 24 && 0 ≤ r.minute && r.minute < 60 && 0 ≤ r.second &&
      r.second < 60 then
    .ok (some ⟨r.year.toNat, r.month.toNat, r.day.toNat, r.hour.toNat, r.minute.toNat,
      r.second.toNat, 0, r.zone.map (· * Time.second)⟩)
  else .ok none

def readWords? (dd mm yy tm tz : String) : Option Reading := do
  guard (!(dd.isEmpty || mm.isEmpty || yy.isEmpty))
  let (dd, month) ←
    match month? (lower mm) with
    | some m => some (dd, m)
    | none => (month? (lower dd)).map fun m => (mm, m)
  let dd := dropComma dd
  let swapped := (yy.toList.takeWhile (· != ':')).length
  let (yy, tm) := if 0 < swapped && swapped < yy.length then (tm, yy) else (yy, tm)
  let yy := dropComma yy
  let first ← yy.toList.head?
  let (yy, tz) := if isFigure first then (yy, tz) else (tz, yy)
  guard (!tm.isEmpty)
  let (h, m, s) ← clockParts? (dropComma tm)
  let year ← number? yy
  let day ← number? dd
  let hour ← number? h
  let minute ← number? m
  let second ← number? s
  some ⟨fullYear year, month, day, hour, minute, second, zoneSeconds? tz⟩

def read (s : String) : Except Fault (Option Moment) :=
  match (splitZone (splitDashed (withoutDay (wordsOf s)))).take 5 with
  | [dd, mm, yy, tm, tz] =>
    match readWords? dd mm yy tm tz with
    | some r => r.moment
    | none => .ok none
  | _ => .ok none

end StepGraph.Time.Mail
