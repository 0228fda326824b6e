import CanonicalMarkdown.Number.Numeral
import CanonicalMarkdown.Yaml.Value

namespace CanonicalMarkdown.Yaml

/-! A plain scalar is null, a boolean, a number or, when it reads as none of these, a string. -/

namespace Scalar

def isNull (text : String) : Bool :=
  text == "" || text == "null" || text == "Null" || text == "NULL" || text == "~"

def boolean? (text : String) : Option Bool :=
  if text == "true" || text == "True" || text == "TRUE" then some true
  else if text == "false" || text == "False" || text == "FALSE" then some false
  else none

/-! Integers. -/

def dropSign : List Char → List Char
  | '-' :: rest => rest
  | '+' :: rest => rest
  | text => text

/-- A run of several digits that starts with zero is no number. -/
def isZeroPadded (text : List Char) : Bool :=
  match dropSign text with
  | '0' :: c :: rest => (c :: rest).all Char.isDigit
  | _ => false

def magnitude? : List Char → Option Nat
  | '0' :: 'x' :: rest => Numeral.natural? 16 rest
  | '0' :: 'o' :: rest => Numeral.natural? 8 rest
  | '0' :: 'b' :: rest => Numeral.natural? 2 rest
  | text => if isZeroPadded text then none else Numeral.natural? 10 text

/-- An integer has an optional sign and at most 128 bits. -/
def integer? (text : List Char) : Option Int :=
  match text with
  | '-' :: rest => (magnitude? rest).bind fun value =>
      if value ≤ Nat.pow 2 127 then some (-(value : Int)) else none
  | '+' :: rest => (magnitude? rest).bind fun value =>
      if value < Nat.pow 2 128 then some value else none
  | _ => (magnitude? text).bind fun value => if value < Nat.pow 2 128 then some value else none

/-! Fractions, and numbers that are none. -/

def isFinite : Binary64 → Bool
  | .finite _ _ _ => true
  | _ => false

/-- The nearest number to a fraction, which may be infinite. -/
def fraction? : List Char → Option Binary64
  | '-' :: rest => (Numeral.decimal? rest).map (Binary64.ofDecimal true)
  | rest => (Numeral.decimal? rest).map (Binary64.ofDecimal false)

def finite? (text : List Char) : Option Binary64 := (fraction? text).filter isFinite

def isInfinity (text : List Char) : Bool :=
  text == ".inf".toList || text == ".Inf".toList || text == ".INF".toList

def isUndefined (text : List Char) : Bool :=
  text == ".nan".toList || text == ".NaN".toList || text == ".NAN".toList

/-- The number a text stands for, when it is a finite fraction or the name of a special number. -/
def float? (text : List Char) : Option Binary64 :=
  if isUndefined text then some .undefined
  else match text with
    | '+' :: '+' :: _ | '+' :: '-' :: _ => none
    | '+' :: rest => if isInfinity rest then some (.infinite false) else finite? rest
    | '-' :: rest => if isInfinity rest then some (.infinite true) else finite? text
    | _ => if isInfinity text then some (.infinite false) else finite? text

/-- Whether a string has to be quoted lest it be read as something else. -/
def isAmbiguous (text : String) : Bool :=
  let chars := text.toList
  isNull text || (boolean? text).isSome || (integer? chars).isSome || isZeroPadded chars ||
    (float? chars).isSome

/-! Numbers are written with the fewest digits that are read back: with a point while it falls at
most five zeros before the first digit or sixteen digits after it, else with an exponent. -/

def zeros (count : Nat) : String := String.ofList (List.replicate count '0')

def pointed (decimal : Decimal) : String :=
  let digits := toString decimal.digits
  let point := decimal.exponent + digits.length
  if 0 ≤ decimal.exponent ∧ point ≤ 16 then
    digits ++ zeros decimal.exponent.toNat ++ ".0"
  else if 0 < point ∧ point ≤ 16 then
    (digits.take point.toNat).toString ++ "." ++ (digits.drop point.toNat).toString
  else if -5 < point ∧ point ≤ 0 then
    "0." ++ zeros (-point).toNat ++ digits
  else
    let fraction := if digits.length = 1 then "" else "." ++ (digits.drop 1).toString
    (digits.take 1).toString ++ fraction ++ "e" ++ toString (point - 1)

def floatText : Binary64 → String
  | .undefined => ".nan"
  | .infinite false => ".inf"
  | .infinite true => "-.inf"
  | .finite negative mantissa exponent =>
      let sign := if negative then "-" else ""
      if mantissa = 0 then sign ++ "0.0" else sign ++ pointed (Binary64.shortest mantissa exponent)

end Scalar

end CanonicalMarkdown.Yaml
