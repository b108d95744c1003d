/-!
# Number literals

A `Numeral` is a number as it is written: a sign, a whole part, the digits
after the point and an exponent of ten.

* `Numeral.chars` writes it, with no leading zero in the whole part and the
  sign of the exponent always shown.
* `Numeral.integer?` is its value if it is written as an integer that fits
  64 bits.
* `Numeral.toFloat?` is the double it is read as. The digits are gathered in a
  64-bit integer, which is then scaled by one power of ten, so the result is
  near the written value but not always the nearest double.
-/

namespace StreamTyping

/-- A decimal digit. -/
abbrev Digit := Fin 10

/-- The character of a digit. -/
def Digit.char (d : Digit) : Char := Nat.digitChar d.val

/-- The digit that a character stands for. -/
def Digit.ofChar? (c : Char) : Option Digit :=
  if h : '0' ≤ c ∧ c ≤ '9' then
    some ⟨c.toNat - '0'.toNat, by
      have : c.toNat ≤ 57 := h.2
      simp only [Char.reduceToNat]
      omega⟩
  else none

/-- A number as it is written. -/
structure Numeral where
  negative : Bool := false
  /-- The integer before the point. -/
  whole : Nat
  /-- The digits after the point; there is no point if there are none. -/
  fraction : List Digit := []
  /-- The power of ten written at the end. -/
  exponent : Option Int := none
deriving DecidableEq, Repr

namespace Numeral

/-- The literal of a natural number. -/
def ofNat (n : Nat) : Numeral := { whole := n }

/-- The point and the digits after it. -/
def fractionChars : List Digit → List Char
  | [] => []
  | ds => '.' :: ds.map Digit.char

/-- The mark of an exponent, its sign and its digits. -/
def exponentChars : Option Int → List Char
  | none => []
  | some (.ofNat n) => 'e' :: '+' :: Nat.toDigits 10 n
  | some (.negSucc n) => 'e' :: '-' :: Nat.toDigits 10 (n + 1)

/-- A numeral as text. -/
def chars (n : Numeral) : List Char :=
  (if n.negative then ['-'] else []) ++ Nat.toDigits 10 n.whole ++
    fractionChars n.fraction ++ exponentChars n.exponent

/-- The value of a numeral that is written as an integer, if it fits a signed
or an unsigned word of 64 bits. A negative zero is no integer. -/
def integer? (n : Numeral) : Option Int :=
  if n.fraction = [] ∧ n.exponent = none then
    if n.negative then
      if 0 < n.whole ∧ 2 * n.whole ≤ UInt64.size then some (-n.whole) else none
    else if n.whole < UInt64.size then some n.whole else none
  else none

/-- Drops final digits until the rest fits 64 bits, and counts them. -/
def fitWhole (n dropped : Nat) : Nat × Nat :=
  if n < UInt64.size then (n, dropped) else fitWhole (n / 10) (dropped + 1)
termination_by n
decreasing_by
  rename_i h
  have : 0 < UInt64.size := by decide
  omega

/-- Appends digits while the number fits 64 bits, and counts them. -/
def fitFraction (n : Nat) : List Digit → Nat × Nat
  | [] => (n, 0)
  | d :: ds =>
    if n * 10 + d.val < UInt64.size then
      let (m, used) := fitFraction (n * 10 + d.val) ds
      (m, used + 1)
    else (n, 0)

/-- The double nearest to a power of ten. -/
def powerOfTen (k : Nat) : Float := Float.ofScientific 1 false k

/-- Scales a double by a power of ten: one multiplication or one division, after
divisions by 10 ^ 308 while the power is below -308. Nothing if the result is
out of range. -/
def scale (x : Float) (power : Int) : Option Float :=
  if power.natAbs ≤ 308 then
    if 0 ≤ power then
      let y := x * powerOfTen power.natAbs
      if y.isInf then none else some y
    else some (x / powerOfTen power.natAbs)
  else if x == 0 then some x
  else if 0 ≤ power then none
  else scale (x / powerOfTen 308) (power + 308)
termination_by power.natAbs
decreasing_by omega

/-- The double that a numeral is read as, unless it is out of range. -/
def toFloat? (n : Numeral) : Option Float :=
  let (whole, dropped) := fitWhole n.whole 0
  let (significand, used) := fitFraction whole n.fraction
  let magnitude := scale (Float.ofNat significand)
    ((dropped : Int) - used + n.exponent.getD 0)
  magnitude.map fun x => if n.negative then -x else x

end Numeral

end StreamTyping
