/-!
Finite double-precision numbers as exact dyadic rationals, and the nearest double of an exact
quotient. Everything is decided on the 64-bit word, so no rounding happens outside `nearest`.
-/
namespace StepGraph

def twoTo (n : Nat) : Nat := Nat.pow 2 n

def tenTo (n : Nat) : Nat := Nat.pow 10 n

end StepGraph

namespace StepGraph.Decimal

/-- The number `mantissa * 2 ^ exponent`, below zero when `negative`. -/
structure Dyadic where
  negative : Bool
  mantissa : Nat
  exponent : Int
  deriving DecidableEq, Repr

inductive Reading where
  | finite (d : Dyadic)
  | infinite (negative : Bool)
  | nan
  deriving DecidableEq, Repr

def Reading.ofFloat (x : Float) : Reading :=
  let bits := x.toBits.toNat
  let negative : Bool := decide (twoTo 63 ≤ bits)
  let field : Nat := bits / twoTo 52 % twoTo 11
  let fraction := bits % twoTo 52
  if field = 2047 then (if fraction = 0 then .infinite negative else .nan)
  else if field = 0 then .finite ⟨negative, fraction, -1074⟩
  else .finite ⟨negative, twoTo 52 + fraction, (field : Int) - 1075⟩

def Dyadic.fraction (d : Dyadic) : Nat × Nat :=
  if 0 ≤ d.exponent then (d.mantissa * twoTo d.exponent.toNat, 1)
  else (d.mantissa, twoTo (-d.exponent).toNat)

def Dyadic.signed (d : Dyadic) (n : Nat) : Int := if d.negative then -(n : Int) else n

def Dyadic.truncate (d : Dyadic) : Int := d.signed (d.fraction.1 / d.fraction.2)

def Dyadic.isWhole (d : Dyadic) : Bool := d.fraction.1 % d.fraction.2 == 0

def roundQuotient (num den : Nat) : Nat :=
  let q := num / den
  let r := num % den
  if 2 * r < den then q else if 2 * r > den then q + 1 else q + q % 2

def scaled (num den : Nat) (e : Int) : Nat × Nat :=
  if 0 ≤ e then (num, den * twoTo e.toNat) else (num * twoTo (-e).toNat, den)

/-- Word of the size nearest to `num / den`. Exponent and mantissa add up, so that a mantissa that
rounds up to `2 ^ 53` moves to the next exponent by itself. -/
def nearestBits (num den : Nat) : Nat :=
  if num = 0 then 0
  else
    let guess : Int := (num.log2 : Int) - (den.log2 : Int) - 52
    let first := scaled num den guess
    let e := if first.1 / first.2 < twoTo 52 then guess - 1 else guess
    let e := max e (-1074)
    let last := scaled num den e
    (e + 1074).toNat * twoTo 52 + roundQuotient last.1 last.2

def infinityBits : Nat := 2047 * twoTo 52

def nearest (negative : Bool) (num den : Nat) : Float :=
  let bits := min (nearestBits num den) infinityBits
  Float.ofBits (UInt64.ofNat (if negative then twoTo 63 + bits else bits))

def ofInt? (i : Int) : Option Float :=
  if nearestBits i.natAbs 1 < infinityBits then some (nearest (decide (i < 0)) i.natAbs 1) else none

/-- The nearest double of `digits * 10 ^ exponent`. Exponents far outside the range are answered
without forming the power. -/
def ofDigits (negative : Bool) (digits : Nat) (exponent : Int) : Float :=
  let size := (Nat.toDigits 10 digits).length
  if digits = 0 || size + exponent < -400 then nearest negative 0 1
  else if 400 < size + exponent then nearest negative (twoTo 2000) 1
  else if 0 ≤ exponent then nearest negative (digits * tenTo exponent.toNat) 1
  else nearest negative digits (tenTo (-exponent).toNat)

def infinity (negative : Bool) : Float := nearest negative (twoTo 2000) 1

def notANumber : Float := Float.ofBits 0x7FF8000000000000

end StepGraph.Decimal
