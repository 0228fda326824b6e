import CanonicalMarkdown.Number.Binary64

namespace CanonicalMarkdown.Numeral

/-! Digits of a base, and numbers made of them. -/

def digit? (c : Char) : Option Nat :=
  let code := c.toNat
  if 48 ≤ code ∧ code ≤ 57 then some (code - 48)
  else if 97 ≤ code ∧ code ≤ 102 then some (code - 87)
  else if 65 ≤ code ∧ code ≤ 70 then some (code - 55)
  else none

def digitsFrom? (base value : Nat) : List Char → Option Nat
  | [] => some value
  | c :: rest =>
      match digit? c with
      | none => none
      | some digit => if digit < base then digitsFrom? base (base * value + digit) rest else none

def natural? (base : Nat) (digits : List Char) : Option Nat :=
  if digits.isEmpty then none else digitsFrom? base 0 digits

/-! Decimal fractions: digits, a point that may stand at either end, and an exponent. -/

def exponent? : List Char → Option Int
  | [] => some 0
  | 'e' :: rest | 'E' :: rest =>
      match rest with
      | '-' :: digits => (natural? 10 digits).map fun value => -(value : Int)
      | '+' :: digits => (natural? 10 digits).map Int.ofNat
      | digits => (natural? 10 digits).map Int.ofNat
  | _ => none

def decimal? (text : List Char) : Option Decimal :=
  let whole := text.takeWhile Char.isDigit
  let afterWhole := text.dropWhile Char.isDigit
  let (fraction, tail) := match afterWhole with
    | '.' :: rest => (rest.takeWhile Char.isDigit, rest.dropWhile Char.isDigit)
    | rest => ([], rest)
  match natural? 10 (whole ++ fraction), exponent? tail with
  | some digits, some exponent => some ⟨digits, exponent - fraction.length⟩
  | _, _ => none

end CanonicalMarkdown.Numeral
