import StreamTyping.Decimal.Numeral

/-!
# Shortest decimals

The fewest decimal digits that read back to a given double, found by exact
arithmetic on natural numbers.

* `Binary` is a positive finite double, split into mantissa and exponent.
* `Binary.admits` holds of the decimals that round to it.
* `Binary.shortest` tries one digit, then two, and so on: of the two decimals
  next to the value on each grid it takes the nearer admitted one.
* `Decimal.positional` and `Decimal.scientific` lay the digits out.
-/

namespace StreamTyping

/-- The number `digits * 10 ^ power`. -/
structure Decimal where
  digits : Nat
  power : Int
deriving DecidableEq, Repr

/-- Moves final zeros of the digits into the power. -/
def Decimal.trim (d : Decimal) : Decimal :=
  if 0 < d.digits ∧ d.digits % 10 = 0 then trim ⟨d.digits / 10, d.power + 1⟩ else d
termination_by d.digits
decreasing_by omega

/-- Where an exact tie between two decimals of equal length goes. -/
inductive Tie where
  | even
  | up
deriving DecidableEq, Repr

/-- The number `mantissa * 2 ^ exponent`, a positive finite double. -/
structure Binary where
  mantissa : Nat
  exponent : Int
  /-- The double below is half as far away as the double above. -/
  narrow : Bool
deriving DecidableEq, Repr

/-- Compares `a * 10 ^ i` with `b * 2 ^ j`. -/
def compareScaled (a : Nat) (i : Int) (b : Nat) (j : Int) : Ordering :=
  compare (a * Nat.pow 10 i.toNat * Nat.pow 2 (-j).toNat)
    (b * Nat.pow 2 j.toNat * Nat.pow 10 (-i).toNat)

namespace Binary

/-- The magnitude in the bits of a finite double. -/
def ofBits (bits : UInt64) : Binary :=
  let exponent := (bits >>> 52 &&& 0x7FF).toNat
  let fraction := (bits &&& 0xFFFFFFFFFFFFF).toNat
  if exponent = 0 then ⟨fraction, -1074, false⟩
  else ⟨0x10000000000000 + fraction, (exponent : Int) - 1075, fraction = 0 ∧ 1 < exponent⟩

/-- A decimal rounds to this double: it lies between the midpoints to the
neighbours. A midpoint itself rounds to the even mantissa. -/
def admits (x : Binary) (d : Decimal) : Bool :=
  let low := 4 * x.mantissa - if x.narrow then 1 else 2
  let high := 4 * x.mantissa + 2
  let even := x.mantissa % 2 = 0
  let below := compareScaled d.digits d.power low (x.exponent - 2)
  let above := compareScaled d.digits d.power high (x.exponent - 2)
  (below = .gt ∨ even ∧ below = .eq) ∧ (above = .lt ∨ even ∧ above = .eq)

/-- The value as a quotient. -/
def numerator (x : Binary) : Nat := x.mantissa * Nat.pow 2 x.exponent.toNat

/-- The denominator of the value as a quotient, a power of two. -/
def denominator (x : Binary) : Nat := Nat.pow 2 (-x.exponent).toNat

/-- The least `k` with the value below `10 ^ k`. -/
def scale (x : Binary) : Int :=
  let n := x.numerator
  let d := x.denominator
  if d ≤ n then (Nat.toDigits 10 (n / d)).length
  else 1 - (Nat.toDigits 10 ((d - 1) / n)).length

/-- The greatest multiple of `10 ^ power` that is not above the value. -/
def floor (x : Binary) (power : Int) : Nat :=
  x.numerator * Nat.pow 10 (-power).toNat / (x.denominator * Nat.pow 10 power.toNat)

/-- The decimal with this power that is nearest to the value, if one of the
value's two neighbours on that grid is admitted. -/
def nearest? (tie : Tie) (x : Binary) (power : Int) : Option Decimal :=
  let n := x.floor power
  let lower : Decimal := ⟨n, power⟩
  let upper : Decimal := ⟨n + 1, power⟩
  match x.admits lower, x.admits upper with
  | false, false => none
  | true, false => some lower
  | false, true => some upper
  | true, true =>
    match compareScaled (2 * n + 1) power (2 * x.mantissa) x.exponent with
    | .gt => some lower
    | .lt => some upper
    | .eq => if tie = .even ∧ n % 2 = 0 then some lower else some upper

/-- The value itself, written out. -/
def exact (x : Binary) : Decimal :=
  ⟨x.numerator * Nat.pow 5 (-x.exponent).toNat, -((-x.exponent).toNat : Int)⟩

/-- The shortest decimal that rounds to the value, nearest among those of its length. -/
def shortest (tie : Tie) (x : Binary) : Decimal :=
  (((List.range 17).findSome? fun n : Nat =>
    x.nearest? tie (x.scale - (n + 1 : Nat))).getD x.exact).trim

end Binary

namespace Decimal

/-- The last `count` decimal digits of a number. -/
def lastDigits (n : Nat) : Nat → List Digit
  | 0 => []
  | count + 1 => lastDigits (n / 10) count ++ [Fin.ofNat 10 n]

/-- Digits at their places before and after the point. -/
def positional (negative : Bool) (d : Decimal) : Numeral :=
  if 0 ≤ d.power then { negative, whole := d.digits * Nat.pow 10 d.power.toNat }
  else
    let places := d.power.natAbs
    { negative, whole := d.digits / Nat.pow 10 places, fraction := lastDigits d.digits places }

/-- The power of ten of the leading digit. -/
def magnitude (d : Decimal) : Int := d.power + (Nat.toDigits 10 d.digits).length - 1

/-- One digit before the point, and a power of ten. -/
def scientific (negative : Bool) (d : Decimal) : Numeral :=
  let places := (Nat.toDigits 10 d.digits).length - 1
  { negative
    whole := d.digits / Nat.pow 10 places
    fraction := lastDigits d.digits places
    exponent := some d.magnitude }

end Decimal

/-- The sign bit of a double is set. -/
def signBit (x : Float) : Bool := x.toBits >>> 63 = 1

/-- The magnitude of a finite double in the fewest digits. -/
def shortestDecimal (tie : Tie) (x : Float) : Decimal :=
  let b := Binary.ofBits x.toBits
  if b.mantissa = 0 then ⟨0, 0⟩ else b.shortest tie

namespace Numeral

/-- The literal of a finite double in a data file: positional from `0.00001` and
below `10 ^ 16` with at least one digit after the point, and otherwise with an
exponent. Ties between shortest decimals go to the even one. -/
def ofFloat (x : Float) : Numeral :=
  let d := shortestDecimal .even x
  let negative := signBit x
  if d.digits = 0 ∨ -5 ≤ d.magnitude ∧ d.magnitude < 16 then
    let n := d.positional negative
    if n.fraction = [] then { n with fraction := [0] } else n
  else d.scientific negative

/-- The literal of a finite double without an exponent, and without a point if it
is whole. Ties between shortest decimals go up. -/
def plain (x : Float) : Numeral :=
  (shortestDecimal .up x).positional (signBit x)

end Numeral

end StreamTyping
