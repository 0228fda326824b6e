import CanonicalMarkdown.Yaml.Emission
import CanonicalMarkdown.Yaml.Style
import CanonicalMarkdown.Yaml.Tag

namespace CanonicalMarkdown.Yaml

/-! A pen knows where on the line it stands. -/

structure Pen where
  text : String := ""
  column : Nat := 0
  /-- No space is needed before what comes next. -/
  afterGap : Bool := true
  /-- The line holds nothing but indentation and the marks of entries. -/
  onlyIndentation : Bool := true

namespace Pen

def put (c : Char) (pen : Pen) : Pen :=
  { pen with text := pen.text.push c, column := pen.column + 1 }

def putAll (chars : List Char) (pen : Pen) : Pen := chars.foldl (fun pen c => pen.put c) pen

def putBreak (c : Char) (pen : Pen) : Pen := { pen with text := pen.text.push c, column := 0 }

/-- Goes to the given column, on a new line unless this one can still be indented that far. -/
def indent (column : Nat) (pen : Pen) : Pen :=
  let fresh :=
    if !pen.onlyIndentation || column < pen.column || (pen.column == column && !pen.afterGap) then
      pen.putBreak '\n'
    else
      pen
  let padded := fresh.putAll (List.replicate (column - fresh.column) ' ')
  { padded with afterGap := true, onlyIndentation := true }

def separate (pen : Pen) : Pen := if pen.afterGap then pen else pen.put ' '

/-- Something that belongs to the content of the line. -/
def word (chars : List Char) (pen : Pen) : Pen :=
  { pen.putAll chars with afterGap := false, onlyIndentation := false }

/-- The mark of an entry, after which the line can still be indented further. -/
def entryMark (c : Char) (pen : Pen) : Pen :=
  { pen.separate.put c with afterGap := false }

/-! Scalars. -/

def escapeLetter? (c : Char) : Option Char :=
  match c.toNat with
  | 0x00 => some '0'
  | 0x07 => some 'a'
  | 0x08 => some 'b'
  | 0x09 => some 't'
  | 0x0A => some 'n'
  | 0x0B => some 'v'
  | 0x0C => some 'f'
  | 0x0D => some 'r'
  | 0x1B => some 'e'
  | 0x22 => some '"'
  | 0x5C => some '\\'
  | 0x85 => some 'N'
  | 0x2028 => some 'L'
  | 0x2029 => some 'P'
  | _ => none

def upperHex (width value : Nat) : List Char :=
  let digits := (Nat.toDigits 16 value).map Char.toUpper
  List.replicate (width - digits.length) '0' ++ digits

def escaped (c : Char) : List Char :=
  match escapeLetter? c with
  | some letter => ['\\', letter]
  | none =>
      if c.toNat ≤ 0xFF then '\\' :: 'x' :: upperHex 2 c.toNat
      else if c.toNat ≤ 0xFFFF then '\\' :: 'u' :: upperHex 4 c.toNat
      else '\\' :: 'U' :: upperHex 8 c.toNat

def doubleQuotedChar (c : Char) : List Char :=
  if !isPrintable c || isLineBreak c || c == '"' || c == '\\' then escaped c else [c]

def doubleQuoted (chars : List Char) (pen : Pen) : Pen :=
  pen.separate.word ('"' :: chars.flatMap doubleQuotedChar ++ ['"'])

/-- Between quotes a line break is followed by the indentation of the scalar. -/
def singleQuotedBody (column : Nat) : (afterBreak : Bool) → List Char → Pen → Pen
  | afterBreak, [], pen => if afterBreak then pen.indent column else pen
  | afterBreak, c :: rest, pen =>
      if isLineBreak c then
        let broken := if !afterBreak && c == '\n' then pen.putBreak '\n' else pen
        singleQuotedBody column true rest { broken.putBreak c with onlyIndentation := true }
      else if isSpacing c then
        singleQuotedBody column afterBreak rest (pen.put c)
      else
        let placed := if afterBreak then pen.indent column else pen
        let written := if c == '\'' then placed.putAll ['\'', '\''] else placed.put c
        singleQuotedBody column false rest { written with onlyIndentation := false }

def singleQuoted (column : Nat) (chars : List Char) (pen : Pen) : Pen :=
  let opened := pen.separate.word ['\'']
  (singleQuotedBody column false chars opened).word ['\'']

/-- Blocks that start with a gap say how far they are indented, and how they end unless it is with
a single line break. -/
def literalHints (chars : List Char) : List Char :=
  let start := match chars with
    | c :: _ => if c == ' ' || isLineBreak c then ['2'] else []
    | [] => []
  let ending := match chars.reverse with
    | [] => ['-']
    | [c] => if isLineBreak c then ['+'] else ['-']
    | c :: d :: _ => if !isLineBreak c then ['-'] else if isLineBreak d then ['+'] else []
  start ++ ending

def literalBody (column : Nat) : (afterBreak : Bool) → List Char → Pen → Pen
  | _, [], pen => pen
  | afterBreak, c :: rest, pen =>
      if isLineBreak c then
        literalBody column true rest { pen.putBreak c with onlyIndentation := true }
      else
        let placed := if afterBreak then pen.indent column else pen
        literalBody column false rest { placed.put c with onlyIndentation := false }

def literal (column : Nat) (chars : List Char) (pen : Pen) : Pen :=
  let headed := (pen.separate.word ('|' :: literalHints chars)).putBreak '\n'
  literalBody column true chars { headed with afterGap := true, onlyIndentation := true }

def string (column : Nat) (text : String) (pen : Pen) : Pen :=
  let chars := text.toList
  match Style.choose text with
  | .plain => pen.separate.word chars
  | .singleQuoted => pen.singleQuoted column chars
  | .doubleQuoted => pen.doubleQuoted chars
  | .literal => pen.literal column chars

/-! Tags. -/

def isTagChar (c : Char) : Bool :=
  c.isAlphanum || "_-;/?:@&=+$,.~*'()[]".toList.contains c

def tagByte (byte : UInt8) : List Char := '%' :: upperHex 2 byte.toNat

def tagChar (c : Char) : List Char :=
  if isTagChar c then [c] else c.toString.toUTF8.data.toList.flatMap tagByte

/-- A tag that is nothing but an exclamation mark is written out between angle brackets. -/
def tagWord (name : String) : List Char :=
  match (Tag.written name).toList with
  | '!' :: c :: rest => '!' :: (c :: rest).flatMap tagChar
  | chars => '!' :: '<' :: chars.flatMap tagChar ++ ['>']

def tag : Option String → Pen → Pen
  | none, pen => pen
  | some name, pen => pen.separate.word (tagWord name)

end Pen

/-! Block notation. Entries of a mapping that stands in an entry are indented by two; a sequence
that is the value of a key stands under the key. -/

namespace Value

/-- The column of what stands in a node: none for the document itself. -/
abbrev Indentation := Option Nat

def Indentation.deeper : Indentation → Nat
  | none => 0
  | some column => column + 2

/-- Scalars of several lines are indented even when they are the whole document. -/
def Indentation.ofScalar : Indentation → Nat
  | none => 2
  | some column => column + 2

def longestSimpleKey : Nat := 128

def tagLength (tag : Option String) : Nat :=
  match tag with
  | none => 0
  | some name => (Tag.written name).utf8ByteSize

/-- A key is simple when it is short, has one line and no entries of its own. -/
def isSimpleKey (tag : Option String) : Value → Bool
  | .null => tagLength tag + 4 ≤ longestSimpleKey
  | .boolean value => tagLength tag + (if value then 4 else 5) ≤ longestSimpleKey
  | .integer value => tagLength tag + (toString value).length ≤ longestSimpleKey
  | .float value => tagLength tag + (Scalar.floatText value).length ≤ longestSimpleKey
  | .string value =>
      !value.toList.any isLineBreak && tagLength tag + value.utf8ByteSize ≤ longestSimpleKey
  | .sequence items => items.isEmpty && tagLength tag ≤ longestSimpleKey
  | .mapping entries => entries.isEmpty && tagLength tag ≤ longestSimpleKey
  | .tagged name value => value.isSimpleKey (some name)

/-- A sequence under a key keeps the column of the key, unless the line is still open. -/
def sequenceColumn (inMapping : Bool) (indentation : Indentation) (pen : Pen) : Nat :=
  match indentation with
  | none => 0
  | some column => if inMapping && !pen.onlyIndentation then column else column + 2

mutual

def draw (indentation : Indentation) (inMapping : Bool) (tag : Option String) (pen : Pen) :
    Value → Pen
  | .null => (pen.tag tag).separate.word "null".toList
  | .boolean value => (pen.tag tag).separate.word (if value then "true" else "false").toList
  | .integer value => (pen.tag tag).separate.word (toString value).toList
  | .float value => (pen.tag tag).separate.word (Scalar.floatText value).toList
  | .string value => (pen.tag tag).string indentation.ofScalar value
  | .sequence [] => (pen.tag tag).separate.word ['[', ']']
  | .sequence items =>
      let tagged := pen.tag tag
      drawItems (sequenceColumn inMapping indentation tagged) tagged items
  | .mapping [] => (pen.tag tag).separate.word ['\x7b', '\x7d']
  | .mapping entries => drawEntries indentation.deeper (pen.tag tag) entries
  | .tagged name value => value.draw indentation inMapping (some name) pen

def drawItems (column : Nat) (pen : Pen) : List Value → Pen
  | [] => pen
  | item :: rest =>
      drawItems column (item.draw (some column) false none ((pen.indent column).entryMark '-')) rest

def drawEntries (column : Nat) (pen : Pen) : List (Value × Value) → Pen
  | [] => pen
  | (key, value) :: rest =>
      let start := pen.indent column
      let keyed :=
        if key.isSimpleKey none then
          (key.draw (some column) true none start).word [':']
        else
          ((key.draw (some column) true none (start.entryMark '?')).indent column).entryMark ':'
      drawEntries column (value.draw (some column) true none keyed) rest

end

/-- The document that holds the value. -/
def print (value : Value) : Except PrintError String := do
  value.checkMarks
  return ((value.draw none false none {}).indent 0).text

end Value

end CanonicalMarkdown.Yaml
