import StepGraph.Time.Moment

/-!
The clock of the American Pacific coast, eight hours behind UTC and one hour less in summer. The
days on which the clock changes have moved several times; after 2037 no change is planned.
-/
namespace StepGraph.Time.Pacific

def sundayFrom (year month day : Nat) : Nat :=
  let n := dayNumber year month day
  n + (7 - n % 7) % 7

def hour : Int := 3600 * second

def ticksAt (dayNumber : Nat) (utcHour : Int) : Int := ((dayNumber : Int) - 1) * day + utcHour * hour

/-- When the clock goes forward in a year: at two in the morning, or at one before 1967. -/
def forward? (year : Nat) : Option Int :=
  if year < 1918 || 2037 < year then none
  else if year < 1920 then some (ticksAt (sundayFrom year 3 25) 10)
  else if year == 1942 then some (ticksAt (dayNumber 1942 2 9) 10)
  else if year == 1948 then some (ticksAt (dayNumber 1948 3 14) 10 + 60 * second)
  else if year < 1950 then none
  else if year < 1967 then some (ticksAt (sundayFrom year 4 24) 9)
  else if year == 1974 then some (ticksAt (dayNumber 1974 1 6) 10)
  else if year == 1975 then some (ticksAt (dayNumber 1975 2 23) 10)
  else if year < 1987 then some (ticksAt (sundayFrom year 4 24) 10)
  else if year < 2007 then some (ticksAt (sundayFrom year 4 1) 10)
  else some (ticksAt (sundayFrom year 3 8) 10)

def back? (year : Nat) : Option Int :=
  if year < 1918 || 2037 < year then none
  else if year < 1920 then some (ticksAt (sundayFrom year 10 25) 9)
  else if year == 1945 then some (ticksAt (dayNumber 1945 9 30) 9)
  else if year == 1949 then some (ticksAt (dayNumber 1949 1 1) 9)
  else if year < 1950 then none
  else if year < 1962 then some (ticksAt (sundayFrom year 9 24) 9)
  else if year < 2007 then some (ticksAt (sundayFrom year 10 25) 9)
  else some (ticksAt (sundayFrom year 11 1) 9)

/-- Summer time that lasts over the turn of the year. -/
def isSummerAtNewYear (year : Nat) : Bool := (1943 ≤ year && year ≤ 1945) || year == 1949

def isSummer (utc : Moment) : Bool :=
  let passed (t : Option Int) : Bool := t.any (· ≤ utc.ticks)
  if passed (back? utc.year) then false
  else passed (forward? utc.year) || isSummerAtNewYear utc.year

/-- Standard time began on a November noon of 1883; before it, noon was when the sun said so. -/
def standardSince : Int := ticksAt (dayNumber 1883 11 18) 20

def behind (utc : Moment) : Int :=
  if utc.ticks < standardSince then 473 * 60 * second
  else if isSummer utc then 7 * hour else 8 * hour

def local? (utc : Moment) : Option Moment :=
  Moment.ofTicks? (utc.ticks - behind utc) none

def text (t : Moment) : String :=
  let hour := if t.hour % 12 == 0 then 12 else t.hour % 12
  padded 2 t.month ++ "/" ++ padded 2 t.day ++ "/" ++ toString t.year ++ ", " ++ toString hour ++
    ":" ++ padded 2 t.minute ++ (if t.hour < 12 then " AM" else " PM")

end StepGraph.Time.Pacific
