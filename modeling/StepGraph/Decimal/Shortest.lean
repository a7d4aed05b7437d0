import StepGraph.Decimal.Binary64

/-!
The shortest decimal that reads back as a given double, nearest first. `Dyadic.shortest` finds the
digits; `showFloat` lays them out: positional between `1e-4` and `1e16`, with an exponent outside,
and always with a mark that it is no whole number.
-/
namespace StepGraph.Decimal

/-- The value `0.d₁d₂… * 10 ^ point`. -/
structure Digits where
  digits : List Char
  point : Int
  deriving DecidableEq, Repr

/-- Numerators, over one denominator, of a number and of the ends of the interval that rounds to
it. The ends belong to the interval when the mantissa is even. -/
structure Interval where
  low : Nat
  value : Nat
  high : Nat
  den : Nat
  closed : Bool

def Dyadic.interval (d : Dyadic) : Interval :=
  let narrow := d.mantissa = twoTo 52 ∧ -1074 < d.exponent
  let low := 4 * d.mantissa - (if narrow then 1 else 2)
  let high := 4 * d.mantissa + 2
  let e := d.exponent - 2
  let up := twoTo e.toNat
  ⟨low * up, 4 * d.mantissa * up, high * up, twoTo (-e).toNat, d.mantissa % 2 == 0⟩

def Interval.shift (i : Interval) (power : Int) : Interval :=
  let up := tenTo power.toNat
  ⟨i.low * up, i.value * up, i.high * up, i.den * tenTo (-power).toNat, i.closed⟩

def Interval.holds (i : Interval) (n : Nat) : Bool :=
  if i.closed then i.low ≤ n * i.den && n * i.den ≤ i.high
  else i.low < n * i.den && n * i.den < i.high

def Interval.nearestWhole? (i : Interval) : Option Nat :=
  let below := i.value / i.den
  let above := below + 1
  let toBelow := i.value - below * i.den
  let toAbove := above * i.den - i.value
  match i.holds below, i.holds above with
  | true, true =>
    some (if toBelow < toAbove || (toBelow == toAbove && below % 2 == 0) then below else above)
  | true, false => some below
  | false, true => some above
  | false, false => none

def pointOf (num den : Nat) : Int :=
  if den ≤ num then ((Nat.toDigits 10 (num / den)).length : Int)
  else
    let whole := den / num
    let size := (Nat.toDigits 10 whole).length
    if num * tenTo size < den then -(size : Int)
    else if den ≤ num * tenTo (size - 1) then 2 - (size : Int)
    else 1 - (size : Int)

/-- Tries ever finer decimal grids. Seventeen places always suffice. -/
def shortestFrom (i : Interval) (point : Int) (places : Nat) : Nat → Nat × Int
  | 0 => (i.value / i.den, 0)
  | fuel + 1 =>
    match (i.shift ((places : Int) - point)).nearestWhole? with
    | some n => (n, point - places)
    | none => shortestFrom i point (places + 1) fuel

def dropTrailingZeros (ds : List Char) : List Char :=
  (ds.reverse.dropWhile (· == '0')).reverse

def Dyadic.shortest (d : Dyadic) : Digits :=
  if d.mantissa = 0 then ⟨['0'], 1⟩
  else
    let i := d.interval
    let found := shortestFrom i (pointOf i.value i.den) 1 17
    let ds := Nat.toDigits 10 found.1
    ⟨dropTrailingZeros ds, found.2 + ds.length⟩

def showExponent (e : Int) : List Char :=
  let ds := Nat.toDigits 10 e.natAbs
  'e' :: (if e < 0 then '-' else '+') :: (if ds.length < 2 then '0' :: ds else ds)

def Digits.render (d : Digits) : List Char :=
  let size := d.digits.length
  if -4 < d.point && d.point ≤ 16 then
    if d.point ≤ 0 then '0' :: '.' :: List.replicate (-d.point).toNat '0' ++ d.digits
    else if size ≤ d.point.toNat then
      d.digits ++ List.replicate (d.point.toNat - size) '0' ++ ['.', '0']
    else d.digits.take d.point.toNat ++ '.' :: d.digits.drop d.point.toNat
  else
    match d.digits with
    | [] => []
    | [c] => c :: showExponent (d.point - 1)
    | c :: rest => c :: '.' :: rest ++ showExponent (d.point - 1)

structure Spelling where
  infinity : String
  nan : String

def Spelling.show (s : Spelling) (x : Float) : String :=
  match Reading.ofFloat x with
  | .nan => s.nan
  | .infinite negative => if negative then "-" ++ s.infinity else s.infinity
  | .finite d => String.ofList ((if d.negative then ['-'] else []) ++ d.shortest.render)

def showFloat (x : Float) : String := Spelling.show ⟨"inf", "nan"⟩ x

end StepGraph.Decimal
