import CanonicalMarkdown.Yaml.Scalar

namespace CanonicalMarkdown.Yaml

/-! Which styles a string can be written in depends on the characters in it. -/

def isLineBreak (c : Char) : Bool :=
  c == '\n' || c == '\r' || c == '\u0085' || c == '\u2028' || c == '\u2029'

def isSpacing (c : Char) : Bool := c == ' ' || c == '\t'

/-- Characters that may stand for themselves outside double quotes. -/
def isPrintable (c : Char) : Bool :=
  let code := c.toNat
  code == 0x0A || (0x20 ≤ code && code ≤ 0x7E) || (0xA0 ≤ code && code ≤ 0xD7FF) ||
    (0xE000 ≤ code && code ≤ 0xFFFD && code != 0xFEFF) || 0x10000 ≤ code

inductive Style where
  | plain
  | singleQuoted
  | doubleQuoted
  | literal
  deriving DecidableEq, Repr

namespace Style

def isGapOrEnd : Option Char → Bool
  | none => true
  | some c => isSpacing c || isLineBreak c || c == '\x00'

/-- Characters that open a construct of the format when they come first. -/
def opensConstruct (c : Char) : Bool :=
  "#,[]\x7b\x7d&*!|>'\"%@`".toList.contains c

def hasIndicatorFirst : List Char → Bool
  | '-' :: '-' :: '-' :: _ | '.' :: '.' :: '.' :: _ => true
  | c :: rest =>
      opensConstruct c || ((c == '?' || c == ':' || c == '-') && isGapOrEnd rest.head?)
  | [] => false

/-- A colon before a gap, or a number sign after one, past the first character. -/
def hasIndicatorAfter : (previous : Char) → List Char → Bool
  | _, [] => false
  | previous, c :: rest =>
      (c == ':' && isGapOrEnd rest.head?) || (c == '#' && isGapOrEnd (some previous)) ||
        hasIndicatorAfter c rest

def hasIndicator : List Char → Bool
  | [] => false
  | c :: rest => hasIndicatorFirst (c :: rest) || hasIndicatorAfter c rest

def hasPair (first second : Char → Bool) : List Char → Bool
  | c :: d :: rest => (first c && second d) || hasPair first second (d :: rest)
  | _ => false

def isSpace (c : Char) : Bool := c == ' '

def hasEdgeGap (text : List Char) : Bool :=
  let isEdge (c : Char) := isSpace c || isLineBreak c
  text.head?.any isEdge || text.getLast?.any isEdge

/-- Neither quotes nor blocks show a space at the end of a line or a character out of range. -/
def needsEscapes (text : List Char) : Bool :=
  hasPair isSpace isLineBreak text || text.any (fun c => !isPrintable c)

def allowsSingleQuotes (text : List Char) : Bool :=
  !(hasPair isLineBreak isSpace text || needsEscapes text)

def allowsLiteral (text : List Char) : Bool :=
  !(text.isEmpty || text.getLast?.any isSpace || needsEscapes text)

def allowsPlain (text : List Char) : Bool :=
  !(hasEdgeGap text || text.any isLineBreak || needsEscapes text || hasIndicator text)

def quoted (text : List Char) : Style :=
  if allowsSingleQuotes text then .singleQuoted else .doubleQuoted

/-- A text of several lines is written as a block, one that would be read as something other than
a string between quotes, and any other one plainly, as far as its characters allow. -/
def choose (text : String) : Style :=
  let chars := text.toList
  if chars.contains '\n' then
    if allowsLiteral chars then .literal else .doubleQuoted
  else if Scalar.isAmbiguous text || !allowsPlain chars then
    quoted chars
  else
    .plain

end Style

end CanonicalMarkdown.Yaml
