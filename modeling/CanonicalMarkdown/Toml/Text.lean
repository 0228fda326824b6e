import CanonicalMarkdown.Number.Numeral
import CanonicalMarkdown.Toml.Value

namespace CanonicalMarkdown.Toml

abbrev Scan (α : Type) := List Char → Except ReadError (α × List Char)

/-! Blanks, comments and line ends. -/

def isBlank (c : Char) : Bool := c == ' ' || c == '\t'

def isControl (c : Char) : Bool := (c.toNat < 32 && c != '\t') || c.toNat == 127

def skipBlanks (text : List Char) : List Char := text.dropWhile isBlank

/-- Passes over blanks, line ends and comments. -/
def skipGaps : (inComment : Bool) → List Char → Except ReadError (List Char)
  | _, [] => .ok []
  | _, '\n' :: rest => skipGaps false rest
  | _, '\r' :: '\n' :: rest => skipGaps false rest
  | true, c :: rest => if isControl c then .error .controlCharacter else skipGaps true rest
  | false, '#' :: rest => skipGaps true rest
  | false, c :: rest => if isBlank c then skipGaps false rest else .ok (c :: rest)

/-- Passes over a comment and the end of its line. -/
def endLine : (inComment : Bool) → List Char → Except ReadError (List Char)
  | _, [] => .ok []
  | _, '\n' :: rest => .ok rest
  | _, '\r' :: '\n' :: rest => .ok rest
  | true, c :: rest => if isControl c then .error .controlCharacter else endLine true rest
  | false, '#' :: rest => endLine true rest
  | false, c :: rest => if isBlank c then endLine false rest else .error .unexpectedCharacter

/-! Strings. -/

def isScalarValue (code : Nat) : Bool := code < 0xD800 || (0xE000 ≤ code && code ≤ 0x10FFFF)

def codePoint (width : Nat) (text : List Char) : Except ReadError (Char × List Char) :=
  let digits := text.take width
  match Numeral.natural? 16 digits with
  | some code =>
      if digits.length = width ∧ isScalarValue code then .ok (Char.ofNat code, text.drop width)
      else .error .unknownEscape
  | none => .error .unknownEscape

/-- The character an escape stands for, given what follows the backslash. -/
def escape : Scan Char
  | 'b' :: rest => .ok ('\x08', rest)
  | 't' :: rest => .ok ('\t', rest)
  | 'n' :: rest => .ok ('\n', rest)
  | 'f' :: rest => .ok ('\x0c', rest)
  | 'r' :: rest => .ok ('\r', rest)
  | 'e' :: rest => .ok ('\x1b', rest)
  | '"' :: rest => .ok ('"', rest)
  | '\\' :: rest => .ok ('\\', rest)
  | 'x' :: rest => codePoint 2 rest
  | 'u' :: rest => codePoint 4 rest
  | 'U' :: rest => codePoint 8 rest
  | _ => .error .unknownEscape

inductive Quoting where
  | basic
  | literal
  deriving DecidableEq, Repr

def Quoting.mark : Quoting → Char
  | .basic => '"'
  | .literal => '\''

/-- The text up to the closing quote of a string on one line. -/
def shortString (quoting : Quoting) : (steps : Nat) → (collected : List Char) → Scan String
  | 0, _, _ => .error .unclosedString
  | _, _, [] => .error .unclosedString
  | steps + 1, collected, c :: rest =>
      if c == quoting.mark then .ok (String.ofList collected.reverse, rest)
      else if c == '\\' && quoting == .basic then do
        let (escaped, rest) ← escape rest
        shortString quoting steps (escaped :: collected) rest
      else if isControl c then .error .controlCharacter
      else shortString quoting steps (c :: collected) rest

def isLineStart : List Char → Bool
  | '\n' :: _ | '\r' :: '\n' :: _ => true
  | _ => false

def dropLineEnd : List Char → List Char
  | '\n' :: rest => rest
  | '\r' :: '\n' :: rest => rest
  | text => text

def dropGap : List Char → List Char
  | '\n' :: rest => dropGap rest
  | '\r' :: '\n' :: rest => dropGap rest
  | c :: rest => if isBlank c then dropGap rest else c :: rest
  | [] => []

/-- The text up to the three closing quotes. Up to two more quotes before them belong to the text,
and a backslash at the end of a line joins it with the next. -/
def longString (quoting : Quoting) : (steps : Nat) → (collected : List Char) → Scan String
  | 0, _, _ => .error .unclosedString
  | _, _, [] => .error .unclosedString
  | steps + 1, collected, c :: rest =>
      let quotes := ((c :: rest).take 5).takeWhile (· == quoting.mark)
      if 3 ≤ quotes.length then
        .ok (String.ofList (collected.reverse ++ quotes.drop 3), (c :: rest).drop quotes.length)
      else if c == '\\' && quoting == .basic then
        if isLineStart (skipBlanks rest) then
          longString quoting steps collected (dropGap rest)
        else do
          let (escaped, rest) ← escape rest
          longString quoting steps (escaped :: collected) rest
      else if c == '\r' && isLineStart (c :: rest) then
        longString quoting steps (c :: collected) rest
      else if isControl c && c != '\n' then .error .controlCharacter
      else longString quoting steps (c :: collected) rest

def isTripled (mark : Char) (text : List Char) : Bool := text.take 3 == [mark, mark, mark]

def readString (quoting : Quoting) (text : List Char) : Except ReadError (String × List Char) :=
  if isTripled quoting.mark text then
    longString quoting text.length [] (dropLineEnd (text.drop 3))
  else
    shortString quoting text.length [] (text.drop 1)

/-! Keys are made of parts with points between them. -/

def isBareChar (c : Char) : Bool := c.isAlphanum || c == '_' || c == '-'

def keyPart (text : List Char) : Except ReadError (String × List Char) :=
  match text with
  | '"' :: rest => shortString .basic text.length [] rest
  | '\'' :: rest => shortString .literal text.length [] rest
  | _ =>
      let part := text.takeWhile isBareChar
      if part.isEmpty then .error .malformedKey
      else .ok (String.ofList part, text.dropWhile isBareChar)

/-- The parts before the last, the last, and what follows the blanks after it. -/
def keyParts : (steps : Nat) → (before : List String) → Scan (List String × String)
  | 0, _, _ => .error .malformedKey
  | steps + 1, before, text => do
      let (part, rest) ← keyPart (skipBlanks text)
      match skipBlanks rest with
      | '.' :: rest => keyParts steps (before ++ [part]) rest
      | rest => return ((before, part), rest)

def readKey (text : List Char) : Except ReadError ((List String × String) × List Char) :=
  keyParts (text.length + 1) [] text

end CanonicalMarkdown.Toml
