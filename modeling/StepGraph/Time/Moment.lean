/-!
A date with a time of day and, when the writer gave one, an offset from UTC. `Moment.iso` is the
written form; `Moment.inUtc?` moves a moment to UTC and fails only where the calendar ends.
-/
namespace StepGraph.Time

def isLeap (y : Nat) : Bool := y % 4 == 0 && (y % 100 != 0 || y % 400 == 0)

def daysInMonth (y m : Nat) : Nat :=
  if m == 2 then (if isLeap y then 29 else 28)
  else if m == 4 || m == 6 || m == 9 || m == 11 then 30
  else 31

def daysBeforeYear (y : Nat) : Nat :=
  (y - 1) * 365 + (y - 1) / 4 - (y - 1) / 100 + (y - 1) / 400

def daysBeforeMonth (y m : Nat) : Nat :=
  (List.range (m - 1)).foldl (fun n k => n + daysInMonth y (k + 1)) 0

def dayNumber (y m d : Nat) : Nat := daysBeforeYear y + daysBeforeMonth y m + d

def yearOfDay (n : Nat) : Nat × Nat :=
  let n := n - 1
  let n400 := n / 146097
  let r := n % 146097
  let n100 := min (r / 36524) 3
  let r := r - n100 * 36524
  let n4 := r / 1461
  let r := r % 1461
  let n1 := min (r / 365) 3
  (n400 * 400 + n100 * 100 + n4 * 4 + n1 + 1, r - n1 * 365)

def monthDay (y m rest : Nat) : Nat → Nat × Nat
  | 0 => (m, rest + 1)
  | fuel + 1 =>
    if rest < daysInMonth y m then (m, rest + 1)
    else monthDay y (m + 1) (rest - daysInMonth y m) fuel

def dateOfDay (n : Nat) : Nat × Nat × Nat :=
  let (y, rest) := yearOfDay n
  let (m, d) := monthDay y 1 rest 11
  (y, m, d)

def weekday (n : Nat) : Nat := (n + 6) % 7

def validDate (y m d : Nat) : Bool :=
  1 ≤ y && y ≤ 9999 && 1 ≤ m && m ≤ 12 && 1 ≤ d && d ≤ daysInMonth y m

def second : Int := 1000000
def day : Int := 86400 * second

structure Moment where
  year : Nat
  month : Nat
  day : Nat
  hour : Nat := 0
  minute : Nat := 0
  second : Nat := 0
  micro : Nat := 0
  /-- Microseconds east of UTC; a moment without one is local to its reader. -/
  offset : Option Int := none
  deriving DecidableEq, Repr, Inhabited

def padded (width n : Nat) : String :=
  let ds := Nat.toDigits 10 n
  String.ofList (List.replicate (width - ds.length) '0' ++ ds)

def offsetText (o : Int) : String :=
  let n := o.natAbs
  let seconds := n / 1000000
  let sign := if o < 0 then "-" else "+"
  let base := sign ++ padded 2 (seconds / 3600) ++ ":" ++ padded 2 (seconds / 60 % 60)
  let fraction := n % 1000000
  if fraction != 0 then base ++ ":" ++ padded 2 (seconds % 60) ++ "." ++ padded 6 fraction
  else if seconds % 60 != 0 then base ++ ":" ++ padded 2 (seconds % 60)
  else base

namespace Moment

def dateText (t : Moment) : String :=
  padded 4 t.year ++ "-" ++ padded 2 t.month ++ "-" ++ padded 2 t.day

def timeText (t : Moment) : String :=
  padded 2 t.hour ++ ":" ++ padded 2 t.minute ++ ":" ++ padded 2 t.second

def isoWith (separator : String) (t : Moment) : String :=
  t.dateText ++ separator ++ t.timeText ++
    (if t.micro == 0 then "" else "." ++ padded 6 t.micro) ++
    (t.offset.elim "" offsetText)

def iso (t : Moment) : String := t.isoWith "T"

def ticks (t : Moment) : Int :=
  ((dayNumber t.year t.month t.day : Int) - 1) * Time.day +
    ((t.hour * 60 + t.minute) * 60 + t.second : Nat) * Time.second + t.micro

def ofTicks? (n : Int) (offset : Option Int) : Option Moment :=
  if n < 0 then none
  else
    let micros := n.toNat
    let days := micros / 86400000000 + 1
    let rest := micros % 86400000000
    let (y, m, d) := dateOfDay days
    if 9999 < y then none
    else
      let s := rest / 1000000
      some ⟨y, m, d, s / 3600, s / 60 % 60, s % 60, rest % 1000000, offset⟩

/-- The same instant on the clock of UTC; `none` when it leaves the calendar. -/
def inUtc? (t : Moment) : Option Moment :=
  match t.offset with
  | none => none
  | some o => ofTicks? (t.ticks - o) (some 0)

def epoch : Int := 719162 * Time.day

def ofEpoch? (seconds : Int) : Option Moment := ofTicks? (epoch + seconds * Time.second) none

end Moment

end StepGraph.Time
