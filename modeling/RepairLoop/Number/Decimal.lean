import RepairLoop.Number.Nearest
/-!
# Doubles in decimal

A double is a sign, a significand and a power of two. This file writes it with
the fewest digits that read back, with a fixed number of places, and with a fixed
number of significant digits. All roundings are exact and send a half to the even
neighbour.
-/

namespace RepairLoop.Number

/-- What the bits of a double stand for. -/
inductive Decoded where
  | finite (negative : Bool) (significand : Nat) (exponent : Int)
  | infinite (negative : Bool)
  | notANumber
  deriving DecidableEq, Inhabited

/-- The parts of a double. -/
def decode (x : Float) : Decoded :=
  let bits := x.toBits.toNat
  let negative := bits ≥ twoTo 63
  let e := (bits >>> 52) % 2048
  let f := bits % twoTo 52
  if e = 2047 then if f = 0 then .infinite negative else .notANumber
  else if e = 0 then .finite negative f (-1074)
  else .finite negative (f + twoTo 52) ((e : Int) - 1075)

/-- A finite double that is neither infinite nor not a number. -/
def isFinite (x : Float) : Bool :=
  match decode x with
  | .finite .. => true
  | _ => false

/-- Decimal digits of a number, most significant first. -/
def digitsOf (n : Nat) : List Char :=
  Nat.toDigits 10 n

/-- The number `0.d₁d₂… * 10 ^ point`. -/
structure Decimal where
  digits : List Char
  point : Int
  deriving DecidableEq, Inhabited

/-- The number of decimal places before the point of `num / den`, both positive. -/
def pointOf (num den : Nat) : Int :=
  ((digitsOf (num * tenTo 400 / den)).length : Int) - 400

/-- `num / den` counted in units of `10 ^ s`, as a fraction. -/
def scaled (num den : Nat) (s : Int) : Nat × Nat :=
  if 0 ≤ s then (num, den * tenTo s.toNat) else (num * tenTo (-s).toNat, den)

/-- A grid point `d * 10 ^ s` without its trailing zeros. -/
def normalised (d : Nat) (s : Int) : Decimal :=
  let ds := digitsOf d
  ⟨(ds.reverse.dropWhile (· == '0')).reverse, s + ds.length⟩

/-- The point of the grid of step `10 ^ s` nearest to `v`, among its two
neighbours that lie between `lo` and `hi`; all three are counted in units of
`1 / den`, and `closed` says whether the ends belong. -/
def gridHit? (lo v hi den : Nat) (closed : Bool) (s : Int) : Option Nat :=
  let (vn, vd) := scaled v den s
  let (ln, _) := scaled lo den s
  let (hn, _) := scaled hi den s
  let below := vn / vd
  let above := below + 1
  let inside (d : Nat) : Bool :=
    if closed then ln ≤ d * vd && d * vd ≤ hn else ln < d * vd && d * vd < hn
  match inside below, inside above with
  | true, false => some below
  | false, true => some above
  | false, false => none
  | true, true =>
    let down := vn - below * vd
    let up := above * vd - vn
    if down < up then some below
    else if up < down then some above
    else if below % 2 = 0 then some below else some above

/-- The first grid with a hit, from `k` digits on. -/
def shortestFrom (lo v hi den : Nat) (closed : Bool) (point : Int) : Nat → Nat → Decimal
  | 0, _ => ⟨['0'], 1⟩
  | fuel + 1, k =>
    match gridHit? lo v hi den closed (point - k) with
    | some d => if d = 0 then shortestFrom lo v hi den closed point fuel (k + 1)
                else normalised d (point - k)
    | none => shortestFrom lo v hi den closed point fuel (k + 1)

/-- The fewest digits that read back as the double `m * 2 ^ e`. -/
def shortest (m : Nat) (e : Int) : Decimal :=
  if m = 0 then ⟨['0'], 1⟩
  else
    let v := 4 * m
    let hi := v + 2
    let lo := if m = twoTo 52 && e > -1074 then v - 1 else v - 2
    let (up, den) := if e ≥ 2 then (twoTo (e - 2).toNat, 1) else (1, twoTo (2 - e).toNat)
    shortestFrom (lo * up) (v * up) (hi * up) den (m % 2 == 0) (pointOf (v * up) den) 18 1

/-- A double as a fraction. -/
def fractionOf (m : Nat) (e : Int) : Nat × Nat :=
  if 0 ≤ e then (m * twoTo e.toNat, 1) else (m, twoTo (-e).toNat)

/-- Some zeros. -/
def zeros (n : Nat) : List Char :=
  List.replicate n '0'

/-- Digits with a point in its place, filled up with zeros. -/
def pointed (ds : List Char) (point : Int) (keepFraction : Bool) : List Char :=
  if point ≤ 0 then ['0', '.'] ++ zeros (-point).toNat ++ ds
  else
    let k := point.toNat
    if ds.length ≤ k then ds ++ zeros (k - ds.length) ++ (if keepFraction then ['.', '0'] else [])
    else ds.take k ++ '.' :: ds.drop k

/-- Digits with a point behind the first, and the power of ten. -/
def exponential (ds : List Char) (point : Int) : List Char :=
  let x := point - 1
  let mantissa := match ds with
    | [] => []
    | [d] => [d]
    | d :: rest => d :: '.' :: rest
  let digits := digitsOf x.natAbs
  mantissa ++ 'e' :: (if x < 0 then '-' else '+') ::
    (if digits.length < 2 then '0' :: digits else digits)

/-- A text with a sign before it. -/
def signed (negative : Bool) (cs : List Char) : String :=
  String.ofList (if negative then '-' :: cs else cs)

/-- The fewest digits that read back; positional from `10 ^ -4` up to below
`10 ^ 16`, always with a fraction or an exponent. -/
def text (x : Float) : String :=
  match decode x with
  | .notANumber => "nan"
  | .infinite negative => signed negative "inf".toList
  | .finite negative m e =>
    let d := shortest m e
    signed negative <|
      if -4 < d.point && d.point ≤ 16 then pointed d.digits d.point true
      else exponential d.digits d.point

/-- The digits of a natural number with a point before the last `places`. -/
def withPlaces (n places : Nat) : List Char :=
  let ds := digitsOf n
  let padded := zeros (places + 1 - ds.length) ++ ds
  if places = 0 then padded
  else padded.take (padded.length - places) ++ '.' :: padded.drop (padded.length - places)

/-- A double with a fixed number of decimal places. -/
def fixed (x : Float) (places : Nat) : String :=
  match decode x with
  | .notANumber => "nan"
  | .infinite negative => signed negative "inf".toList
  | .finite negative m e =>
    let (num, den) := fractionOf m e
    signed negative (withPlaces (roundDiv (num * tenTo places) den) places)

/-- A fixed number of decimal places with a sign in any case. -/
def fixedSigned (x : Float) (places : Nat) : String :=
  let s := fixed x places
  if s.startsWith "-" then s else "+" ++ s

/-- At most `precision` significant digits without trailing zeros; an exponent
from `10 ^ precision` on and below `10 ^ -4`. -/
def general (x : Float) (precision : Nat) : String :=
  match decode x with
  | .notANumber => "nan"
  | .infinite negative => signed negative "inf".toList
  | .finite negative m e =>
    if m = 0 then signed negative ['0']
    else
      let (num, den) := fractionOf m e
      let s := pointOf num den - precision
      let (n, d) := scaled num den s
      let r := normalised (roundDiv n d) s
      signed negative <|
        if -4 < r.point && r.point ≤ precision then pointed r.digits r.point false
        else exponential r.digits r.point

/-- The double nearest to `x` rounded to a number of decimal places. -/
def roundTo (x : Float) (places : Nat) : Float :=
  match decode x with
  | .finite negative m e =>
    let (num, den) := fractionOf m e
    nearest negative (roundDiv (num * tenTo places) den) (tenTo places)
  | _ => x

/-- The integer part of a finite double. -/
def truncate? (x : Float) : Option Int :=
  match decode x with
  | .finite negative m e =>
    let (num, den) := fractionOf m e
    let n : Int := (num / den : Nat)
    some (if negative then -n else n)
  | _ => none

/-- A finite double without a fraction. -/
def isWhole (x : Float) : Bool :=
  match decode x with
  | .finite _ m e =>
    let (num, den) := fractionOf m e
    num % den = 0
  | _ => false

end RepairLoop.Number

/-! ## Scales

What rates and scores need of numbers beside sums, products and comparisons: whole
numbers, the whole quotient of two numbers, and rounding to decimal places. Doubles
are a scale, and so are exact fractions, on which the laws of rates and scores can be
stated.
-/

namespace RepairLoop

/-- Numbers in which rates and scores are counted. -/
class Scale (α : Type) where
  ofNat : Nat → α
  wholeQuotient : α → α → α
  rounded : Nat → α → α

namespace Number

/-- The value of a finite double. -/
def valueOf? (x : Float) : Option Rat :=
  match decode x with
  | .finite negative m e =>
    let (num, den) := fractionOf m e
    let r : Rat := (num : Rat) / (den : Rat)
    some (if negative then -r else r)
  | _ => none

/-- The greatest whole number that is at most the quotient of two doubles; not a
number where there is no quotient. -/
def wholeQuotient (x y : Float) : Float :=
  match valueOf? x, valueOf? y with
  | some a, some b => if b = 0 then 0.0 / 0.0 else ofInt (a / b).floor
  | _, _ => 0.0 / 0.0

/-- A fraction rounded to a number of decimal places, a half going to the even
neighbour. -/
def roundRat (places : Nat) (r : Rat) : Rat :=
  let n := roundDiv (r.num.natAbs * tenTo places) r.den
  let v : Rat := (n : Rat) / ((tenTo places : Nat) : Rat)
  if r < 0 then -v else v

end Number

instance : Scale Float where
  ofNat n := Number.ofInt n
  wholeQuotient := Number.wholeQuotient
  rounded places x := Number.roundTo x places

instance : Scale Rat where
  ofNat n := n
  wholeQuotient a b := ((a / b).floor : Rat)
  rounded := Number.roundRat

end RepairLoop
