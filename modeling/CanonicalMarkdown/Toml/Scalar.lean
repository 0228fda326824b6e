import CanonicalMarkdown.Number.Numeral
import CanonicalMarkdown.Toml.Value

namespace CanonicalMarkdown.Toml.Scalar

/-! Values without quotes or brackets. -/

def isScalarChar (c : Char) : Bool := c.isAlphanum || "+-._:".toList.contains c

def isHexDigit (c : Char) : Bool := (Numeral.digit? c).isSome

/-- The digits without the underscores between them. -/
def ungroup (isDigit : Char → Bool) : List Char → Option (List Char)
  | [] => none
  | [c] => if isDigit c then some [c] else none
  | c :: '_' :: rest => if isDigit c then (ungroup isDigit rest).map (c :: ·) else none
  | c :: rest => if isDigit c then (ungroup isDigit rest).map (c :: ·) else none

def splitSign : List Char → Bool × List Char
  | '-' :: rest => (true, rest)
  | '+' :: rest => (false, rest)
  | text => (false, text)

/-- Digits that start with zero only if there is no other. -/
def wholeDigits? (text : List Char) : Option (List Char) :=
  (ungroup Char.isDigit text).filter fun digits => digits.head? != some '0' || digits.length == 1

def inBase? (base : Nat) (text : List Char) : Option Nat :=
  (ungroup isHexDigit text).bind (Numeral.natural? base)

def natural? : List Char → Option Nat
  | '0' :: 'x' :: rest => inBase? 16 rest
  | '0' :: 'o' :: rest => inBase? 8 rest
  | '0' :: 'b' :: rest => inBase? 2 rest
  | text => (wholeDigits? text).bind (Numeral.natural? 10)

/-- An integer has at most 128 bits, and a sign only in base ten. -/
def integer? (text : List Char) : Option Int :=
  match text with
  | '-' :: rest =>
      ((wholeDigits? rest).bind (Numeral.natural? 10)).bind fun value =>
        if value ≤ Nat.pow 2 127 then some (-(value : Int)) else none
  | '+' :: rest =>
      ((wholeDigits? rest).bind (Numeral.natural? 10)).bind fun value =>
        if value < Nat.pow 2 128 then some value else none
  | _ => (natural? text).bind fun value => if value < Nat.pow 2 128 then some value else none

/-! Fractions have a point with digits on both sides, an exponent, or both. -/

def isDigitOrGroup (c : Char) : Bool := c.isDigit || c == '_'

def exponent? : List Char → Option (List Char)
  | [] => some []
  | 'e' :: rest | 'E' :: rest =>
      let (negative, digits) := splitSign rest
      (ungroup Char.isDigit digits).map fun digits =>
        'e' :: if negative then '-' :: digits else digits
  | _ => none

def fraction? (text : List Char) : Option (List Char) :=
  let whole := text.takeWhile isDigitOrGroup
  let tail := text.dropWhile isDigitOrGroup
  let (point, tail) := match tail with
    | '.' :: rest =>
        ((ungroup Char.isDigit (rest.takeWhile isDigitOrGroup)).map ('.' :: ·),
          rest.dropWhile isDigitOrGroup)
    | rest => (some [], rest)
  match wholeDigits? whole, point, exponent? tail with
  | some _, some [], some [] => none
  | some whole, some point, some exponent => some (whole ++ point ++ exponent)
  | _, _, _ => none

def isFinite : Binary64 → Bool
  | .finite _ _ _ => true
  | _ => false

def isFloat (text : List Char) : Bool :=
  let (_, unsigned) := splitSign text
  unsigned == "inf".toList || unsigned == "nan".toList ||
    (((fraction? unsigned).bind Numeral.decimal?).any fun decimal =>
      isFinite (Binary64.ofDecimal false decimal))

/-! Dates and times. -/

def twoDigits? : List Char → Option (Nat × List Char)
  | first :: second :: rest => (Numeral.natural? 10 [first, second]).map fun value => (value, rest)
  | _ => none

def isLeapYear (year : Nat) : Bool := year % 4 == 0 && (year % 100 != 0 || year % 400 == 0)

def daysOf (year month : Nat) : Nat :=
  if month == 2 then (if isLeapYear year then 29 else 28)
  else if month == 4 || month == 6 || month == 9 || month == 11 then 30
  else 31

/-- What follows a date. -/
def afterDate? (text : List Char) : Option (List Char) := do
  let year ← if (text.take 4).length = 4 then Numeral.natural? 10 (text.take 4) else none
  match text.drop 4 with
  | '-' :: rest =>
      let (month, rest) ← twoDigits? rest
      match rest with
      | '-' :: rest =>
          let (day, rest) ← twoDigits? rest
          if 1 ≤ month ∧ month ≤ 12 ∧ 1 ≤ day ∧ day ≤ daysOf year month then some rest else none
      | _ => none
  | _ => none

def afterFraction? : List Char → Option (List Char)
  | '.' :: rest => if rest.head?.any Char.isDigit then some (rest.dropWhile Char.isDigit) else none
  | rest => some rest

/-- What follows a time of day. Seconds may be left out. -/
def afterTime? (text : List Char) : Option (List Char) := do
  let (hour, rest) ← twoDigits? text
  match rest with
  | ':' :: rest =>
      let (minute, rest) ← twoDigits? rest
      if 23 < hour ∨ 59 < minute then none
      else match rest with
        | ':' :: rest =>
            let (second, rest) ← twoDigits? rest
            if 60 < second then none else afterFraction? rest
        | rest => some rest
  | _ => none

def isOffset : List Char → Bool
  | [] => true
  | ['Z'] | ['z'] => true
  | sign :: rest =>
      (sign == '+' || sign == '-') &&
        match twoDigits? rest with
        | some (hour, ':' :: rest) =>
            match twoDigits? rest with
            | some (minute, []) => hour ≤ 23 && minute ≤ 59
            | _ => false
        | _ => false

def isDate (text : List Char) : Bool := afterDate? text == some []

def isMoment (text : List Char) : Bool :=
  match afterDate? text with
  | some [] => true
  | some (separator :: rest) =>
      "Tt ".toList.contains separator && (afterTime? rest).any isOffset
  | none => afterTime? text == some []

def ofText? (text : List Char) : Option Value :=
  if text == "true".toList then some (.boolean true)
  else if text == "false".toList then some (.boolean false)
  else match integer? text with
    | some value => some (.integer value)
    | none =>
        if isFloat text then some (.float (String.ofList text))
        else if isMoment text then some (.moment (String.ofList text))
        else none

/-- A date and a time may stand apart by a space. -/
def read (text : List Char) : Except ReadError (Value × List Char) :=
  let word := text.takeWhile isScalarChar
  let rest := text.dropWhile isScalarChar
  let (word, rest) := match rest with
    | ' ' :: digit :: tail =>
        if isDate word && digit.isDigit then
          (word ++ ' ' :: (digit :: tail).takeWhile isScalarChar,
            (digit :: tail).dropWhile isScalarChar)
        else (word, rest)
    | _ => (word, rest)
  match ofText? word with
  | some value => .ok (value, rest)
  | none => .error .malformedValue

end CanonicalMarkdown.Toml.Scalar
