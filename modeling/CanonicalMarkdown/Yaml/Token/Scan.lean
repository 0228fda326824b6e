import CanonicalMarkdown.Yaml.Token

namespace CanonicalMarkdown.Yaml

/-! Tokens in block notation depend on indentation, and a scalar turns out to be a key only once
the colon after it is seen. -/

/-- A place where a key may have started. -/
structure PossibleKey where
  /-- Nothing but a key can stand here. -/
  required : Bool
  position : Nat
  index : Nat
  line : Nat
  column : Nat

structure Scanner where
  cursor : Cursor
  tokens : Array Token := #[]
  indent : Int := -1
  outerIndents : List Int := []
  flowLevel : Nat := 0
  keyAllowed : Bool := true
  /-- For the block and each open flow collection, innermost first. -/
  keys : List (Option PossibleKey) := [none]

namespace Scanner

def inFlow (scanner : Scanner) : Bool := 0 < scanner.flowLevel

def emit (token : Token) (scanner : Scanner) : Scanner :=
  { scanner with tokens := scanner.tokens.push token }

def emitAt (position : Nat) (token : Token) (scanner : Scanner) : Scanner :=
  { scanner with
    tokens := (scanner.tokens.extract 0 position).push token ++
      scanner.tokens.extract position scanner.tokens.size }

/-! Indentation. -/

def openBlock (column : Nat) (position : Nat) (token : Token) (scanner : Scanner) : Scanner :=
  if !scanner.inFlow && scanner.indent < (column : Int) then
    { scanner with
      indent := column
      outerIndents := scanner.indent :: scanner.outerIndents }.emitAt position token
  else
    scanner

def closeBlocksFrom (column : Int) : List Int → Scanner → Scanner
  | [], scanner => scanner
  | outer :: rest, scanner =>
      if column < scanner.indent then
        let closed : Scanner := { scanner with indent := outer, outerIndents := rest }
        closeBlocksFrom column rest (closed.emit .blockEnd)
      else
        scanner

def closeBlocks (column : Int) (scanner : Scanner) : Scanner :=
  if scanner.inFlow then scanner else closeBlocksFrom column scanner.outerIndents scanner

/-! Possible keys. -/

def longestKey : Nat := 1024

/-- A key stands on one line and takes up few enough bytes. -/
def isStale (scanner : Scanner) (key : PossibleKey) : Bool :=
  key.line < scanner.cursor.line || key.index + longestKey < scanner.cursor.index

def dropStaleKey (scanner : Scanner) : Option PossibleKey → Except ReadError (Option PossibleKey)
  | none => .ok none
  | some key =>
      if isStale scanner key then
        if key.required then .error .missingColon else .ok none
      else
        .ok (some key)

def dropStaleKeys (scanner : Scanner) : Except ReadError Scanner := do
  let keys ← scanner.keys.mapM (dropStaleKey scanner)
  return { scanner with keys }

def setKey (key : Option PossibleKey) (scanner : Scanner) : Scanner :=
  { scanner with keys := key :: scanner.keys.drop 1 }

def currentKey (scanner : Scanner) : Option PossibleKey := scanner.keys.head?.join

def forgetKey (scanner : Scanner) : Except ReadError Scanner :=
  match scanner.currentKey with
  | some key => if key.required then .error .missingColon else .ok (scanner.setKey none)
  | none => .ok scanner

def noteKey (scanner : Scanner) : Except ReadError Scanner := do
  if scanner.keyAllowed then
    let cursor := scanner.cursor
    let key : PossibleKey := {
      required := !scanner.inFlow && scanner.indent == (cursor.column : Int)
      position := scanner.tokens.size
      index := cursor.index
      line := cursor.line
      column := cursor.column }
    return (← scanner.forgetKey).setKey (some key)
  else
    return scanner

/-! Gaps between tokens. A line break in block notation lets a key start again, and a byte order
mark at the start of a line is passed over. -/

def skipByteOrderMark (cursor : Cursor) : Cursor :=
  if cursor.column = 0 ∧ cursor.head? = some '\ufeff' then cursor.advance 1 else cursor

def skipGaps : (steps : Nat) → Scanner → Scanner
  | 0, scanner => scanner
  | steps + 1, scanner =>
      let tabs := scanner.inFlow || !scanner.keyAllowed
      let spaced := (skipByteOrderMark scanner.cursor).skipWhile fun c =>
        c == ' ' || (tabs && c == '\t')
      let commented :=
        if spaced.head? == some '#' then spaced.skipWhile (fun c => !isLineBreak c) else spaced
      if commented.isAtBreak then
        skipGaps steps { scanner with
          cursor := commented.skipBreak
          keyAllowed := scanner.keyAllowed || !scanner.inFlow }
      else
        { scanner with cursor := commented }

/-! One function for each kind of token. -/

def advance (count : Nat) (scanner : Scanner) : Scanner :=
  { scanner with cursor := scanner.cursor.advance count }

def startOver (scanner : Scanner) : Except ReadError Scanner := do
  return { ← (scanner.closeBlocks (-1)).forgetKey with keyAllowed := false }

def scanDocumentMark (token : Token) (scanner : Scanner) : Except ReadError Scanner := do
  return ((← scanner.startOver).advance 3).emit token

def scanDirectiveLine (scanner : Scanner) : Except ReadError Scanner := do
  let fresh ← scanner.startOver
  let (token, cursor) ← scanDirective fresh.cursor
  return { fresh with cursor }.emit token

def openFlow (token : Token) (scanner : Scanner) : Except ReadError Scanner := do
  let noted ← scanner.noteKey
  return ({ noted with
    flowLevel := noted.flowLevel + 1
    keys := none :: noted.keys
    keyAllowed := true }.advance 1).emit token

def closeFlow (token : Token) (scanner : Scanner) : Except ReadError Scanner := do
  let forgotten ← scanner.forgetKey
  let keys := if 0 < forgotten.flowLevel then forgotten.keys.drop 1 else forgotten.keys
  return ({ forgotten with
    flowLevel := forgotten.flowLevel - 1
    keys
    keyAllowed := false }.advance 1).emit token

def scanFlowEntry (scanner : Scanner) : Except ReadError Scanner := do
  return ({ ← scanner.forgetKey with keyAllowed := true }.advance 1).emit .flowEntry

def scanBlockEntry (scanner : Scanner) : Except ReadError Scanner := do
  if !scanner.inFlow && !scanner.keyAllowed then
    throw .misplacedEntry
  let opened := scanner.openBlock scanner.cursor.column scanner.tokens.size .blockSequenceStart
  return ({ ← opened.forgetKey with keyAllowed := true }.advance 1).emit .blockEntry

def scanKey (scanner : Scanner) : Except ReadError Scanner := do
  if !scanner.inFlow && !scanner.keyAllowed then
    throw .misplacedKey
  let opened := scanner.openBlock scanner.cursor.column scanner.tokens.size .blockMappingStart
  return ({ ← opened.forgetKey with keyAllowed := !opened.inFlow }.advance 1).emit .key

/-- The colon after a possible key makes it one. -/
def scanValue (scanner : Scanner) : Except ReadError Scanner := do
  match scanner.currentKey with
  | some key =>
      let keyed := (scanner.emitAt key.position .key).openBlock key.column key.position
        .blockMappingStart
      return ({ keyed.setKey none with keyAllowed := false }.advance 1).emit .value
  | none =>
      if !scanner.inFlow && !scanner.keyAllowed then
        throw .misplacedValue
      let opened := scanner.openBlock scanner.cursor.column scanner.tokens.size .blockMappingStart
      return ({ opened with keyAllowed := !opened.inFlow }.advance 1).emit .value

def scanNamed (token : String → Token) (scanner : Scanner) : Except ReadError Scanner := do
  let noted ← scanner.noteKey
  let (name, cursor) ← scanName (noted.cursor.advance 1)
  return { noted with cursor, keyAllowed := false }.emit (token name)

def scanTagProperty (scanner : Scanner) : Except ReadError Scanner := do
  let noted ← scanner.noteKey
  let (token, cursor) ← scanTag noted.inFlow noted.cursor
  return { noted with cursor, keyAllowed := false }.emit token

def scanBlockScalar (folded : Bool) (scanner : Scanner) : Except ReadError Scanner := do
  let forgotten ← scanner.forgetKey
  let scanned ← scanBlock folded forgotten.indent (forgotten.cursor.advance 1)
  return { forgotten with cursor := scanned.cursor, keyAllowed := true }.emit
    (.scalar (String.ofList scanned.text) false)

def scanQuotedScalar (double : Bool) (scanner : Scanner) : Except ReadError Scanner := do
  let noted ← scanner.noteKey
  let opened := noted.cursor.advance 1
  let scanned ← scanQuoted double (opened.rest.length + 1) [] opened
  return { noted with cursor := scanned.cursor, keyAllowed := false }.emit
    (.scalar (String.ofList scanned.text) false)

def scanPlainScalar (scanner : Scanner) : Except ReadError Scanner := do
  let noted ← scanner.noteKey
  let cursor := noted.cursor
  let scanned ← scanPlain noted.inFlow (noted.indent + 1) (cursor.rest.length + 1) [] {} cursor
  return { noted with cursor := scanned.cursor, keyAllowed := scanned.broken }.emit
    (.scalar (String.ofList scanned.text) true)

def cannotStartPlain (c : Char) : Bool :=
  "-?:,[]\x7b\x7d#&*!|>'\"%@`".toList.contains c || Style.isGapOrEnd (some c)

def canStartPlain (scanner : Scanner) (c : Char) : Bool :=
  let next := scanner.cursor.peek 1
  !cannotStartPlain c || (c == '-' && !next.any isSpacing) ||
    (!scanner.inFlow && (c == '?' || c == ':') && !Style.isGapOrEnd next)

def scanToken (scanner : Scanner) (c : Char) : Except ReadError Scanner :=
  let cursor := scanner.cursor
  let endsThere := cursor.isAtGapOrEnd 1
  if cursor.column == 0 && c == '%' then scanner.scanDirectiveLine
  else if cursor.isAtDocumentMark then
    scanner.scanDocumentMark (if c == '-' then .documentStart else .documentEnd)
  else if c == '[' then scanner.openFlow .flowSequenceStart
  else if c == '\x7b' then scanner.openFlow .flowMappingStart
  else if c == ']' then scanner.closeFlow .flowSequenceEnd
  else if c == '\x7d' then scanner.closeFlow .flowMappingEnd
  else if c == ',' then scanner.scanFlowEntry
  else if c == '-' && endsThere then scanner.scanBlockEntry
  else if c == '?' && (scanner.inFlow || endsThere) then scanner.scanKey
  else if c == ':' && (scanner.inFlow || endsThere) then scanner.scanValue
  else if c == '*' then scanner.scanNamed .alias
  else if c == '&' then scanner.scanNamed .anchor
  else if c == '!' then scanner.scanTagProperty
  else if c == '|' && !scanner.inFlow then scanner.scanBlockScalar false
  else if c == '>' && !scanner.inFlow then scanner.scanBlockScalar true
  else if c == '\'' then scanner.scanQuotedScalar false
  else if c == '"' then scanner.scanQuotedScalar true
  else if scanner.canStartPlain c then scanner.scanPlainScalar
  else .error .unexpectedCharacter

def scanAll : (steps : Nat) → Scanner → Except ReadError (List Token)
  | 0, _ => .error .unexpectedCharacter
  | steps + 1, scanner => do
      let placed ← (scanner.skipGaps (scanner.cursor.rest.length + 1)).dropStaleKeys
      let closed := placed.closeBlocks placed.cursor.column
      match closed.cursor.head? with
      | none => return (← closed.startOver).tokens.toList
      | some c => scanAll steps (← closed.scanToken c)

end Scanner

/-! Text that may appear in a document. -/

def isAllowed (c : Char) : Bool :=
  let code := c.toNat
  code == 0x09 || code == 0x0A || code == 0x0D || (0x20 ≤ code && code ≤ 0x7E) || code == 0x85 ||
    (0xA0 ≤ code && code ≤ 0xD7FF) || (0xE000 ≤ code && code ≤ 0xFFFD) || 0x10000 ≤ code

/-- The tokens of a text. Each of them takes up at least one character. -/
def Token.scan (text : String) : Except ReadError (List Token) :=
  let chars := text.toList
  if chars.all isAllowed then Scanner.scanAll (chars.length + 1) { cursor := ⟨chars, 0, 0, 0⟩ }
  else .error .controlCharacter

end CanonicalMarkdown.Yaml
