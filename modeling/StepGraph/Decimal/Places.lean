import StepGraph.Decimal.Shortest

/-!
Decimals with a chosen number of places: positional, with an exponent, or whichever of the two is
shorter. Halves go to the even neighbour. Signs are left to the caller.
-/
namespace StepGraph.Decimal

inductive Layout where
  | positional
  | exponent
  | shorter
  deriving DecidableEq, Repr

def splitAtPoint (keepPoint : Bool) (places n : Nat) : List Char :=
  let ds := Nat.toDigits 10 n
  let ds := List.replicate (places + 1 - ds.length) '0' ++ ds
  let whole := ds.length - places
  if places == 0 && !keepPoint then ds else ds.take whole ++ '.' :: ds.drop whole

def positional (keepPoint : Bool) (num den places : Nat) : List Char :=
  splitAtPoint keepPoint places (roundQuotient (num * tenTo places) den)

/-- A whole number with one digit more than there are places, and the exponent of its first
digit. -/
def leading (num den places : Nat) : Nat × Int :=
  if num = 0 then (0, 0)
  else
    let e := pointOf num den - 1
    let shift := (places : Int) - e
    let n := roundQuotient (num * tenTo shift.toNat) (den * tenTo (-shift).toNat)
    if tenTo (places + 1) ≤ n then (n / 10, e + 1) else (n, e)

def withExponent (keepPoint : Bool) (num den places : Nat) : List Char :=
  let l := leading num den places
  splitAtPoint keepPoint places l.1 ++ showExponent l.2

def dropIdleZeros (cs : List Char) : List Char :=
  if cs.contains '.' then
    let cs := dropTrailingZeros cs
    if cs.getLast? == some '.' then cs.dropLast else cs
  else cs

/-- `digits` counts all digits, not only those behind the point. -/
def shorter (keepZeros : Bool) (num den digits : Nat) : List Char :=
  let places := digits - 1
  let l := leading num den places
  let trimmed (cs : List Char) : List Char := if keepZeros then cs else dropIdleZeros cs
  if -4 ≤ l.2 && l.2 ≤ places then
    trimmed (positional keepZeros num den ((places : Int) - l.2).toNat)
  else trimmed (splitAtPoint keepZeros places l.1) ++ showExponent l.2

def Layout.digits (l : Layout) (full : Bool) (num den places : Nat) : List Char :=
  match l with
  | .positional => Decimal.positional full num den places
  | .exponent => withExponent full num den places
  | .shorter => Decimal.shorter full num den (max 1 places)

end StepGraph.Decimal
