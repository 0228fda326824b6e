namespace CanonicalMarkdown

/-! Floating-point numbers with a mantissa of 53 bits, kept as exact integers. -/

inductive Binary64 where
  | undefined
  | infinite (negative : Bool)
  /-- The number `mantissa · 2 ^ exponent`. The mantissa has 53 bits unless the exponent is the
  least. -/
  | finite (negative : Bool) (mantissa : Nat) (exponent : Int)
  deriving DecidableEq, Repr

/-- The number `digits · 10 ^ exponent`. -/
structure Decimal where
  digits : Nat
  exponent : Int
  deriving DecidableEq, Repr

/-- A non-negative quotient of integers. -/
structure Ratio where
  numerator : Nat
  denominator : Nat

namespace Ratio

def ofScaled (value base : Nat) (exponent : Int) : Ratio :=
  ⟨value * base.pow exponent.toNat, base.pow (-exponent).toNat⟩

def floor (ratio : Ratio) : Nat := ratio.numerator / ratio.denominator

/-- The nearest integer, the even one of two that are equally near. -/
def round (ratio : Ratio) : Nat :=
  let whole := ratio.numerator / ratio.denominator
  let twice := 2 * (ratio.numerator % ratio.denominator)
  if twice < ratio.denominator then whole
  else if ratio.denominator < twice then whole + 1
  else whole + whole % 2

def scale (ratio : Ratio) (base : Nat) (exponent : Int) : Ratio :=
  ⟨ratio.numerator * base.pow exponent.toNat, ratio.denominator * base.pow (-exponent).toNat⟩

end Ratio

/-- The number of decimal digits of a positive integer. -/
def Decimal.width (value : Nat) : Nat := (Nat.toDigits 10 value).length

namespace Binary64

def mantissaBits : Nat := 53

def leastExponent : Int := -1074

def greatestExponent : Int := 971

def zero (negative : Bool) : Binary64 := .finite negative 0 leastExponent

/-! Reading: the nearest number, the one with the even mantissa of two that are equally near. -/

/-- The exponent that gives a positive ratio a mantissa of 53 bits, or the least one. -/
def exponentFor (ratio : Ratio) : Int :=
  let guess : Int := (ratio.numerator.log2 : Int) - ratio.denominator.log2 - mantissaBits
  let fitted := if (ratio.scale 2 (-guess)).floor < Nat.pow 2 mantissaBits then guess else guess + 1
  max fitted leastExponent

def ofRatio (negative : Bool) (ratio : Ratio) : Binary64 :=
  let exponent := exponentFor ratio
  let mantissa := (ratio.scale 2 (-exponent)).round
  let carried := mantissa == Nat.pow 2 mantissaBits
  let exponent := if carried then exponent + 1 else exponent
  let mantissa := if carried then Nat.pow 2 (mantissaBits - 1) else mantissa
  if greatestExponent < exponent then .infinite negative else .finite negative mantissa exponent

/-- Decimals far outside the range are answered without computing their powers of ten. -/
def ofDecimal (negative : Bool) (decimal : Decimal) : Binary64 :=
  let magnitude := decimal.exponent + Decimal.width decimal.digits
  if decimal.digits == 0 ∨ magnitude < -330 then zero negative
  else if 330 < magnitude then .infinite negative
  else ofRatio negative (Ratio.ofScaled decimal.digits 10 decimal.exponent)

/-! Writing: the fewest decimal digits that are read back as the same number. -/

/-- Whether the decimal is nearer to this number than to any other. The bounds are in quarters of a
unit: two quarters reach halfway to a neighbour, and below a power of two one quarter does. The
bounds themselves count when the mantissa is even. -/
def readsBack (mantissa : Nat) (exponent : Int) (decimal : Decimal) : Bool :=
  let narrow := mantissa == Nat.pow 2 (mantissaBits - 1) && exponent != leastExponent
  let low := 4 * mantissa - (if narrow then 1 else 2)
  let high := 4 * mantissa + 2
  let shift := exponent - 2
  let left (bound : Nat) := bound * Nat.pow 2 shift.toNat * Nat.pow 10 (-decimal.exponent).toNat
  let right := decimal.digits * Nat.pow 10 decimal.exponent.toNat * Nat.pow 2 (-shift).toNat
  if mantissa % 2 = 0 then left low ≤ right ∧ right ≤ left high
  else left low < right ∧ right < left high

/-- The exponent of the leading decimal digit of a positive ratio. -/
def leadingExponent (ratio : Ratio) : Int :=
  if ratio.denominator ≤ ratio.numerator then
    (Decimal.width ratio.floor : Int) - 1
  else
    let width := Decimal.width (ratio.denominator / ratio.numerator)
    if ratio.numerator * Nat.pow 10 (width - 1) = ratio.denominator then 1 - width else -width

/-- The neighbours of the number on a grid of decimals: the nearer first, the even one of two that
are equally near. -/
def neighbours (ratio : Ratio) (grid : Int) : List Decimal :=
  let scaled := ratio.scale 10 (-grid)
  let below : Decimal := ⟨scaled.floor, grid⟩
  let above : Decimal := ⟨scaled.floor + 1, grid⟩
  if scaled.round = scaled.floor then [below, above] else [above, below]

def dropZeros : (count : Nat) → Decimal → Decimal
  | 0, decimal => decimal
  | count + 1, decimal =>
      if decimal.digits ≠ 0 ∧ decimal.digits % 10 = 0 then
        dropZeros count ⟨decimal.digits / 10, decimal.exponent + 1⟩
      else
        decimal

/-- Grids of one to seventeen digits are tried in turn; the exact value stands behind them. -/
def shortest (mantissa : Nat) (exponent : Int) : Decimal :=
  let ratio := Ratio.ofScaled mantissa 2 exponent
  let leading := leadingExponent ratio
  let found := (List.range 17).findSome? fun (extra : Nat) =>
    (neighbours ratio (leading - extra)).find? (readsBack mantissa exponent)
  let exact : Decimal :=
    if 0 ≤ exponent then ⟨mantissa * Nat.pow 2 exponent.toNat, 0⟩
    else ⟨mantissa * Nat.pow 5 (-exponent).toNat, exponent⟩
  dropZeros 400 (found.getD exact)

/-! Equality of values: both zeros are equal, and so are all undefined numbers. -/

def sameValue : Binary64 → Binary64 → Bool
  | .finite _ 0 _, .finite _ 0 _ => true
  | left, right => left == right

end Binary64

end CanonicalMarkdown
