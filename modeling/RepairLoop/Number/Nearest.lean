import RepairLoop.Json.Basic
/-!
# Doubles and amounts

The double that is nearest to a fraction, and numbers that are shown as they were given.
-/

/-!
## The double nearest to a fraction

Reading a decimal, dividing two integers and rounding to decimal places all end
in the same step: of the doubles, take the one nearest to an exact fraction, and
of two equally near ones the one with an even significand. Doubles and widths are
counted in powers of two, decimal places in powers of ten.
-/

namespace RepairLoop.Number

/-- A power of two. -/
def twoTo (n : Nat) : Nat := Nat.pow 2 n

/-- A power of ten. -/
def tenTo (n : Nat) : Nat := Nat.pow 10 n

theorem twoTo_zero : twoTo 0 = 1 := rfl

theorem twoTo_succ (n : Nat) : twoTo (n + 1) = twoTo n * 2 := rfl

theorem tenTo_zero : tenTo 0 = 1 := rfl

theorem tenTo_succ (n : Nat) : tenTo (n + 1) = tenTo n * 10 := rfl

/-- Division to the nearest integer, a half going to the even neighbour. -/
def roundDiv (num den : Nat) : Nat :=
  let q := num / den
  let r := num % den
  if 2 * r < den then q
  else if den < 2 * r then q + 1
  else if q % 2 = 0 then q else q + 1

/-- A power of two as a fraction's factor: `num / den` divided by `2 ^ s`. -/
def shiftFraction (num den : Nat) (s : Int) : Nat × Nat :=
  if 0 ≤ s then (num, den <<< s.toNat) else (num <<< (-s).toNat, den)

/-- The bits of the double nearest to `num / den`; infinity where it is too
large. -/
def nearestBits (num den : Nat) : Nat :=
  if num = 0 then 0
  else
    let e : Int := (Nat.log2 num : Int) - (Nat.log2 den : Int)
    let s0 := e - 53
    let (n0, d0) := shiftFraction num den s0
    let s1 := if n0 / d0 ≥ twoTo 53 then s0 + 1 else s0
    let s := max s1 (-1074)
    let (n, d) := shiftFraction num den s
    let q := roundDiv n d
    if q ≥ twoTo 52 then
      let (q, s) := if q = twoTo 53 then (twoTo 52, s + 1) else (q, s)
      if s > 971 then 2047 <<< 52
      else ((s + 1075).toNat <<< 52) + (q - twoTo 52)
    else q

/-- The double nearest to `num / den`, with the given sign. -/
def nearest (negative : Bool) (num den : Nat) : Float :=
  let bits := nearestBits num den
  Float.ofBits (UInt64.ofNat (if negative then bits + twoTo 63 else bits))

/-- The double nearest to an integer. -/
def ofInt (n : Int) : Float :=
  nearest (n < 0) n.natAbs 1

/-- The double nearest to `mantissa * 10 ^ exponent`. Exponents that leave the
range of the doubles whatever the digits are answered at once. -/
def ofDecimal (negative : Bool) (mantissa : Nat) (exponent : Int) : Float :=
  let digits : Int := Nat.log2 mantissa / 3 + 1
  if mantissa = 0 then nearest negative 0 1
  else if exponent > 400 then nearest negative (twoTo 2000) 1
  else if exponent + digits < -400 then nearest negative 0 1
  else if 0 ≤ exponent then nearest negative (mantissa * tenTo exponent.toNat) 1
  else nearest negative mantissa (tenTo (-exponent).toNat)

end RepairLoop.Number

/-!
## Amounts

A number as it is given: whole, or with a fraction. It is shown again as it was given.
-/

namespace RepairLoop

/-- A number as it is given. -/
inductive Amount where
  | whole (n : Int)
  | real (x : Float)
  deriving Inhabited

namespace Amount

/-- The value of an amount. -/
def value : Amount → Float
  | whole n => Number.ofInt n
  | real x => x

/-- The amount as it is shown. -/
def json : Amount → Json
  | whole n => .int n
  | real x => .float x

/-- Reads an amount. -/
def ofJson? : Json → Option Amount
  | .int n => some (whole n)
  | .float x => some (real x)
  | _ => none

end Amount

end RepairLoop
