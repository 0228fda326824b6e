import CanonicalMarkdown.Text.Bytes
import CanonicalMarkdown.Yaml.Style

namespace CanonicalMarkdown.Yaml

/-! Why a text is not a document. -/

inductive ReadError where
  | controlCharacter
  | unexpectedCharacter
  | tabInIndentation
  | unclosedScalar
  | unknownEscape
  | malformedBlockHeader
  | malformedAnchor
  | malformedTag
  | malformedDirective
  | missingColon
  | misplacedEntry
  | misplacedKey
  | misplacedValue
  | unexpectedToken
  | repeatedDirective
  | unsupportedVersion
  | unknownTagHandle
  | unknownAlias
  | tooManyAliases
  | duplicateKey
  | invalidTaggedScalar
  | numberOutOfRange
  | tooDeep
  | severalDocuments
  deriving DecidableEq, Repr

def ReadError.message : ReadError → String
  | .controlCharacter => "control characters are not allowed"
  | .unexpectedCharacter => "found character that cannot start any token"
  | .tabInIndentation => "found a tab character that violates indentation"
  | .unclosedScalar => "found unexpected end of a quoted scalar"
  | .unknownEscape => "found unknown escape character"
  | .malformedBlockHeader => "did not find expected comment or line break"
  | .malformedAnchor => "did not find expected alphabetic or numeric character"
  | .malformedTag => "did not find expected tag"
  | .malformedDirective => "did not find expected directive"
  | .missingColon => "could not find expected ':'"
  | .misplacedEntry => "block sequence entries are not allowed in this context"
  | .misplacedKey => "mapping keys are not allowed in this context"
  | .misplacedValue => "mapping values are not allowed in this context"
  | .unexpectedToken => "did not find expected node content"
  | .repeatedDirective => "found duplicate directive"
  | .unsupportedVersion => "found incompatible YAML document"
  | .unknownTagHandle => "found undefined tag handle"
  | .unknownAlias => "unknown anchor"
  | .tooManyAliases => "repetition limit exceeded"
  | .duplicateKey => "duplicate entry"
  | .invalidTaggedScalar => "invalid value for the tag"
  | .numberOutOfRange => "integer out of range"
  | .tooDeep => "recursion limit exceeded"
  | .severalDocuments => "more than one document"

inductive Token where
  | documentStart
  | documentEnd
  | tagDirective (handle : String) (lead : Bytes)
  | versionDirective (major minor : Nat)
  | blockSequenceStart
  | blockMappingStart
  | blockEnd
  | flowSequenceStart
  | flowSequenceEnd
  | flowMappingStart
  | flowMappingEnd
  | blockEntry
  | flowEntry
  | key
  | value
  | alias (name : String)
  | anchor (name : String)
  | tag (handle : String) (suffix : Bytes)
  | scalar (text : String) (plain : Bool)
  deriving DecidableEq, Repr

/-! A position in the text. -/

structure Cursor where
  rest : List Char
  /-- The number of bytes before. -/
  index : Nat := 0
  line : Nat := 0
  column : Nat := 0

namespace Cursor

def byteLength (chars : List Char) : Nat := chars.foldl (fun length c => length + c.utf8Size) 0

def peek (cursor : Cursor) (offset : Nat) : Option Char := (cursor.rest.drop offset).head?

def head? (cursor : Cursor) : Option Char := cursor.rest.head?

def advance (count : Nat) (cursor : Cursor) : Cursor :=
  { cursor with
    rest := cursor.rest.drop count
    index := cursor.index + byteLength (cursor.rest.take count)
    column := cursor.column + count }

/-- A carriage return with the line feed after it is one line break. -/
def skipBreak (cursor : Cursor) : Cursor :=
  match cursor.rest with
  | '\r' :: '\n' :: rest => ⟨rest, cursor.index + 2, cursor.line + 1, 0⟩
  | c :: rest => ⟨rest, cursor.index + c.utf8Size, cursor.line + 1, 0⟩
  | [] => cursor

/-- What the break at the cursor becomes in a scalar. -/
def breakText (cursor : Cursor) : List Char :=
  match cursor.rest with
  | '\u2028' :: _ => ['\u2028']
  | '\u2029' :: _ => ['\u2029']
  | _ => ['\n']

def skipWhile (skip : Char → Bool) (cursor : Cursor) : Cursor :=
  cursor.advance (cursor.rest.takeWhile skip).length

def isAtBreak (cursor : Cursor) : Bool := cursor.head?.any isLineBreak

def isAtSpacing (cursor : Cursor) : Bool := cursor.head?.any isSpacing

def skipSpacing (cursor : Cursor) : Cursor := cursor.skipWhile isSpacing

def isAtGapOrEnd (cursor : Cursor) (offset : Nat) : Bool := Style.isGapOrEnd (cursor.peek offset)

def isAtBreakOrEnd (cursor : Cursor) : Bool := cursor.head?.all isLineBreak

/-- Three dashes or three points alone at the start of a line. -/
def isAtDocumentMark (cursor : Cursor) : Bool :=
  cursor.column == 0 &&
    (cursor.rest.take 3 == ['-', '-', '-'] || cursor.rest.take 3 == ['.', '.', '.']) &&
    cursor.isAtGapOrEnd 3

end Cursor

/-! Spaces and line breaks inside a scalar. -/

structure Gap where
  spaces : List Char := []
  broken : Bool := false
  firstBreak : List Char := []
  otherBreaks : List Char := []

namespace Gap

/-- One line break becomes a space, and of several the first is left out. -/
def fold (gap : Gap) : List Char :=
  if !gap.broken then gap.spaces
  else if gap.firstBreak == ['\n'] then
    if gap.otherBreaks.isEmpty then [' '] else gap.otherBreaks
  else
    gap.firstBreak ++ gap.otherBreaks

/-- Takes in the gap at the cursor. In a plain scalar a tab may not stand left of `column` on a
line of its own. -/
def scan (column : Int) : (steps : Nat) → Gap → Cursor → Except ReadError (Gap × Cursor)
  | 0, gap, cursor => .ok (gap, cursor)
  | steps + 1, gap, cursor =>
      match cursor.head? with
      | none => .ok (gap, cursor)
      | some c =>
          if isSpacing c then
            if !gap.broken then
              scan column steps { gap with spaces := gap.spaces ++ [c] } (cursor.advance 1)
            else if (cursor.column : Int) < column ∧ c = '\t' then
              .error .tabInIndentation
            else
              scan column steps gap (cursor.advance 1)
          else if isLineBreak c then
            if gap.broken then
              scan column steps { gap with otherBreaks := gap.otherBreaks ++ cursor.breakText }
                cursor.skipBreak
            else
              scan column steps ⟨[], true, cursor.breakText, gap.otherBreaks⟩ cursor.skipBreak
          else
            .ok (gap, cursor)

end Gap

/-! Scalars. -/

structure Scanned where
  text : List Char
  /-- A line break was left behind after the scalar. -/
  broken : Bool
  cursor : Cursor

def flowIndicator (c : Char) : Bool :=
  c == ',' || c == '[' || c == ']' || c == '\x7b' || c == '\x7d'

/-- The part of a plain scalar up to the next gap. -/
def plainWord (inFlow : Bool) : List Char → Except ReadError (List Char)
  | [] => .ok []
  | c :: rest =>
      if isSpacing c || isLineBreak c then .ok []
      else if inFlow && c == ':' && rest.head?.any (fun d => d == '?' || flowIndicator d) then
        .error .unexpectedCharacter
      else if (c == ':' && Style.isGapOrEnd rest.head?) || (inFlow && flowIndicator c) then
        .ok []
      else
        (plainWord inFlow rest).map (c :: ·)

/-- What has been collected is kept back to front, here and below. -/
def scanPlain (inFlow : Bool) (column : Int) :
    (steps : Nat) → (collected : List Char) → Gap → Cursor → Except ReadError Scanned
  | 0, collected, gap, cursor => .ok ⟨collected.reverse, gap.broken, cursor⟩
  | steps + 1, collected, gap, cursor =>
      if cursor.isAtDocumentMark || cursor.head? == some '#' then
        .ok ⟨collected.reverse, gap.broken, cursor⟩
      else do
        let word ← plainWord inFlow cursor.rest
        let (collected, gap) :=
          if word.isEmpty then (collected, gap)
          else (word.reverse ++ (gap.fold.reverse ++ collected), {})
        let after := cursor.advance word.length
        if !(after.isAtSpacing || after.isAtBreak) then
          return ⟨collected.reverse, gap.broken, after⟩
        let (gap, next) ← Gap.scan column after.rest.length gap after
        if !inFlow && (next.column : Int) < column then
          return ⟨collected.reverse, gap.broken, next⟩
        scanPlain inFlow column steps collected gap next

def hexValue (digits : List Char) : Option Nat := Numeral.natural? 16 digits

def isScalarValue (code : Nat) : Bool := code < 0xD800 || (0xE000 ≤ code && code ≤ 0x10FFFF)

/-- The character an escape stands for, and how many characters follow the backslash. -/
def escape? : List Char → Option (Char × Nat)
  | '0' :: _ => some ('\x00', 1)
  | 'a' :: _ => some ('\x07', 1)
  | 'b' :: _ => some ('\x08', 1)
  | 't' :: _ | '\t' :: _ => some ('\t', 1)
  | 'n' :: _ => some ('\n', 1)
  | 'v' :: _ => some ('\x0b', 1)
  | 'f' :: _ => some ('\x0c', 1)
  | 'r' :: _ => some ('\r', 1)
  | 'e' :: _ => some ('\x1b', 1)
  | ' ' :: _ => some (' ', 1)
  | '"' :: _ => some ('"', 1)
  | '/' :: _ => some ('/', 1)
  | '\\' :: _ => some ('\\', 1)
  | 'N' :: _ => some ('\u0085', 1)
  | '_' :: _ => some ('\u00a0', 1)
  | 'L' :: _ => some ('\u2028', 1)
  | 'P' :: _ => some ('\u2029', 1)
  | 'x' :: rest => coded 2 rest
  | 'u' :: rest => coded 4 rest
  | 'U' :: rest => coded 8 rest
  | _ => none
where
  coded (width : Nat) (rest : List Char) : Option (Char × Nat) :=
    let digits := rest.take width
    if digits.length < width then none
    else (hexValue digits).bind fun code =>
      if isScalarValue code then some (Char.ofNat code, width + 1) else none

/-- The part of a quoted scalar up to the next gap or the closing quote. A backslash before a line
break takes the break away. -/
def quotedWord (double : Bool) :
    (steps : Nat) → (collected : List Char) → Cursor →
      Except ReadError (List Char × Gap × Cursor)
  | 0, collected, cursor => .ok (collected, {}, cursor)
  | steps + 1, collected, cursor =>
      match cursor.rest with
      | [] => .ok (collected, {}, cursor)
      | c :: rest =>
          if isSpacing c || isLineBreak c then .ok (collected, {}, cursor)
          else if !double && c == '\'' then
            if rest.head? == some '\'' then
              quotedWord double steps ('\'' :: collected) (cursor.advance 2)
            else
              .ok (collected, {}, cursor)
          else if double && c == '"' then .ok (collected, {}, cursor)
          else if double && c == '\\' then
            if rest.head?.any isLineBreak then
              .ok (collected, { broken := true }, (cursor.advance 1).skipBreak)
            else
              match escape? rest with
              | none => .error .unknownEscape
              | some (escaped, width) =>
                  quotedWord double steps (escaped :: collected) (cursor.advance (width + 1))
          else
            quotedWord double steps (c :: collected) (cursor.advance 1)

def scanQuoted (double : Bool) :
    (steps : Nat) → (collected : List Char) → Cursor → Except ReadError Scanned
  | 0, _, _ => .error .unclosedScalar
  | steps + 1, collected, cursor =>
      if cursor.isAtDocumentMark || cursor.rest.isEmpty then .error .unclosedScalar
      else do
        let (collected, gap, after) ← quotedWord double cursor.rest.length collected cursor
        let closing := if double then '"' else '\''
        if after.head? == some closing then
          return ⟨collected.reverse, false, after.advance 1⟩
        let (gap, next) ← Gap.scan 0 after.rest.length gap after
        scanQuoted double steps (gap.fold.reverse ++ collected) next

/-! Blocks. -/

inductive Chomp where
  | clip
  | strip
  | keep
  deriving DecidableEq

structure BlockHeader where
  chomp : Chomp := .clip
  increment : Option Nat := none

def chomp? : Char → Option Chomp
  | '+' => some .keep
  | '-' => some .strip
  | _ => none

def increment? (c : Char) : Option Nat :=
  if '1' ≤ c ∧ c ≤ '9' then some (c.toNat - 48) else none

/-- The hints after the mark of a block, in either order. -/
def blockHeader (rest : List Char) : BlockHeader × Nat :=
  match rest with
  | c :: more =>
      match chomp? c, increment? c with
      | some chomp, _ =>
          match more.head?.bind increment? with
          | some increment => (⟨chomp, some increment⟩, 2)
          | none => (⟨chomp, none⟩, 1)
      | none, some increment =>
          match more.head?.bind chomp? with
          | some chomp => (⟨chomp, some increment⟩, 2)
          | none => (⟨.clip, some increment⟩, 1)
      | none, none => ({}, 0)
  | [] => ({}, 0)

/-- Empty lines before the next line of a block, with the widest indentation seen on them. A tab
may not stand where indentation is expected. -/
def blockBreaks (column : Nat) :
    (steps : Nat) → (widest : Nat) → List Char → Cursor →
      Except ReadError (List Char × Nat × Cursor)
  | 0, widest, breaks, cursor => .ok (breaks, widest, cursor)
  | steps + 1, widest, breaks, cursor =>
      let spaces := (cursor.rest.takeWhile (· == ' ')).length
      let indented :=
        cursor.advance (if column = 0 then spaces else min spaces (column - cursor.column))
      let widest := max widest indented.column
      if (column = 0 ∨ indented.column < column) ∧ indented.head? = some '\t' then
        .error .tabInIndentation
      else if indented.isAtBreak then
        blockBreaks column steps widest (breaks ++ indented.breakText) indented.skipBreak
      else
        .ok (breaks, widest, indented)

structure BlockText where
  collected : List Char := []
  lineBreak : List Char := []
  emptyLines : List Char := []
  afterSpacing : Bool := false

/-- What joins the next line to those before. Folding turns the break between two lines that start
with no gap into a space. -/
def BlockText.joint (folded startsWithGap : Bool) (block : BlockText) : List Char :=
  if folded && block.lineBreak == ['\n'] && !block.afterSpacing && !startsWithGap then
    if block.emptyLines.isEmpty then [' '] else block.emptyLines
  else
    block.lineBreak ++ block.emptyLines

def blockLines (folded : Bool) (column : Nat) :
    (steps : Nat) → BlockText → Cursor → Except ReadError (BlockText × Cursor)
  | 0, block, cursor => .ok (block, cursor)
  | steps + 1, block, cursor =>
      if cursor.column ≠ column ∨ cursor.rest.isEmpty then .ok (block, cursor)
      else do
        let startsWithGap := cursor.isAtSpacing
        let line := cursor.rest.takeWhile (fun c => !isLineBreak c)
        let joint := block.joint folded startsWithGap
        let collected := line.reverse ++ (joint.reverse ++ block.collected)
        let after := cursor.advance line.length
        let lineBreak := if after.isAtBreak then after.breakText else []
        let next := if after.isAtBreak then after.skipBreak else after
        let (emptyLines, _, reached) ← blockBreaks column next.rest.length 0 [] next
        blockLines folded column steps ⟨collected, lineBreak, emptyLines, startsWithGap⟩ reached

def scanBlock (folded : Bool) (indent : Int) (start : Cursor) : Except ReadError Scanned := do
  let (header, width) := blockHeader start.rest
  let gapped := (start.advance width).skipSpacing
  let commented :=
    if gapped.head? == some '#' then gapped.skipWhile (fun c => !isLineBreak c) else gapped
  if !commented.isAtBreakOrEnd then
    throw .malformedBlockHeader
  let first := if commented.isAtBreak then commented.skipBreak else commented
  let given := match header.increment with
    | none => 0
    | some increment => (max indent 0).toNat + increment
  let (breaks, widest, cursor) ← blockBreaks given first.rest.length 0 [] first
  let column := if given = 0 then max (max widest (indent + 1).toNat) 1 else given
  let (block, after) ← blockLines folded column cursor.rest.length { emptyLines := breaks } cursor
  let ending := match header.chomp with
    | .strip => []
    | .clip => block.lineBreak
    | .keep => block.lineBreak ++ block.emptyLines
  return ⟨block.collected.reverse ++ ending, false, after⟩

/-! Names, tags and directives. -/

def isNameChar (c : Char) : Bool := c.isAlphanum || c == '_' || c == '-'

def isUriChar (c : Char) : Bool :=
  isNameChar c || ";/?:@&=+$.!~*'()%".toList.contains c

def isVerbatimUriChar (c : Char) : Bool := isUriChar c || ",[]".toList.contains c

def scanName (cursor : Cursor) : Except ReadError (String × Cursor) :=
  let name := cursor.rest.takeWhile isNameChar
  let after := cursor.advance name.length
  let isEnd := match after.head? with
    | none => true
    | some c => Style.isGapOrEnd (some c) || "?:,]\x7d%@`".toList.contains c
  if name.isEmpty || !isEnd then .error .malformedAnchor
  else .ok (String.ofList name, after)

/-- The byte that a percent sign and two digits stand for. -/
def escapedByte? : List Char → Option (UInt8 × List Char)
  | '%' :: high :: low :: rest => (hexValue [high, low]).map fun byte => (byte.toUInt8, rest)
  | _ => none

/-- How many bytes follow the first one of a character. -/
def followers? (first : UInt8) : Option Nat :=
  if first < 0x80 then some 0
  else if first < 0xC0 then none
  else if first < 0xE0 then some 1
  else if first < 0xF0 then some 2
  else if first < 0xF8 then some 3
  else none

def followingBytes? : (count : Nat) → List Char → Option (Bytes × List Char)
  | 0, rest => some ([], rest)
  | count + 1, text => do
      let (byte, rest) ← escapedByte? text
      let (bytes, rest) ← followingBytes? count rest
      if 0x80 ≤ byte ∧ byte < 0xC0 then some (byte :: bytes, rest) else none

/-- Percent signs in a tag stand for the bytes of characters. -/
def decodeUri : (steps : Nat) → List Char → Option Bytes
  | 0, _ => some []
  | _ + 1, [] => some []
  | steps + 1, '%' :: rest => do
      let (first, rest) ← escapedByte? ('%' :: rest)
      let (following, rest) ← followingBytes? (← followers? first) rest
      return first :: following ++ (← decodeUri steps rest)
  | steps + 1, c :: rest => (decodeUri steps rest).map (Bytes.ofText c.toString ++ ·)

/-- The bytes of a tag, which ends before a zero byte. -/
def uriBytes (chars : List Char) : Except ReadError Bytes :=
  match decodeUri chars.length chars with
  | some bytes => .ok (bytes.takeWhile (· != 0))
  | none => .error .malformedTag

/-- The handle and the rest of a tag, from the exclamation mark on. -/
def scanTag (inFlow : Bool) (start : Cursor) : Except ReadError (Token × Cursor) := do
  let (token, after) ← match start.rest with
    | '!' :: '<' :: rest =>
        let uri := rest.takeWhile isVerbatimUriChar
        let after := start.advance (uri.length + 2)
        if uri.isEmpty || after.head? != some '>' then throw .malformedTag
        pure (Token.tag "" (← uriBytes uri), after.advance 1)
    | _ =>
        let name := (start.rest.drop 1).takeWhile isNameChar
        let named := start.advance (name.length + 1)
        if named.head? == some '!' then
          let suffix := (named.rest.drop 1).takeWhile isUriChar
          if suffix.isEmpty then throw .malformedTag
          pure (Token.tag (String.ofList ('!' :: name ++ ['!'])) (← uriBytes suffix),
            named.advance (suffix.length + 1))
        else
          let more := named.rest.takeWhile isUriChar
          let suffix ← uriBytes (name ++ more)
          let token :=
            if suffix.isEmpty then Token.tag "" (Bytes.ofText "!") else Token.tag "!" suffix
          pure (token, named.advance more.length)
  let isEnd := after.isAtGapOrEnd 0 || (inFlow && after.head? == some ',')
  if isEnd then return (token, after) else throw .malformedTag

def skipDirectiveTail (cursor : Cursor) : Except ReadError Cursor :=
  let gapped := cursor.skipSpacing
  let commented :=
    if gapped.head? == some '#' then gapped.skipWhile (fun c => !isLineBreak c) else gapped
  if !commented.isAtBreakOrEnd then .error .malformedDirective
  else .ok (if commented.isAtBreak then commented.skipBreak else commented)

def longestVersionNumber : Nat := 9

def scanVersionNumber (cursor : Cursor) : Except ReadError (Nat × Cursor) :=
  let digits := cursor.rest.takeWhile Char.isDigit
  match Numeral.natural? 10 digits with
  | some number =>
      if digits.length ≤ longestVersionNumber then .ok (number, cursor.advance digits.length)
      else .error .malformedDirective
  | none => .error .malformedDirective

def scanVersion (cursor : Cursor) : Except ReadError (Token × Cursor) := do
  let (major, after) ← scanVersionNumber cursor
  if after.head? != some '.' then throw .malformedDirective
  let (minor, after) ← scanVersionNumber (after.advance 1)
  return (.versionDirective major minor, after)

/-- A handle is an exclamation mark, or a name between two of them. -/
def scanHandle (cursor : Cursor) : Except ReadError (String × Cursor) :=
  match cursor.rest with
  | '!' :: rest =>
      let name := rest.takeWhile isNameChar
      let handle :=
        '!' :: name ++ (if (rest.drop name.length).head? == some '!' then ['!'] else [])
      if handle.length = name.length + 2 ∨ name.isEmpty then
        .ok (String.ofList handle, cursor.advance handle.length)
      else
        .error .malformedDirective
  | _ => .error .malformedDirective

/-- A handle and what it stands for. -/
def scanAbbreviation (cursor : Cursor) : Except ReadError (Token × Cursor) := do
  let (handle, after) ← scanHandle cursor
  if !after.isAtSpacing then throw .malformedDirective
  let spaced := after.skipSpacing
  let lead := spaced.rest.takeWhile isVerbatimUriChar
  let after := spaced.advance lead.length
  if lead.isEmpty || !after.isAtGapOrEnd 0 then throw .malformedDirective
  return (.tagDirective handle (← uriBytes lead), after)

/-- A directive, from the percent sign on. -/
def scanDirective (start : Cursor) : Except ReadError (Token × Cursor) := do
  let name := (start.rest.drop 1).takeWhile isNameChar
  let named := start.advance (name.length + 1)
  if !named.isAtGapOrEnd 0 then throw .malformedDirective
  let (token, after) ←
    if name == "YAML".toList then scanVersion named.skipSpacing
    else if name == "TAG".toList then scanAbbreviation named.skipSpacing
    else throw .malformedDirective
  return (token, ← skipDirectiveTail after)

end CanonicalMarkdown.Yaml
