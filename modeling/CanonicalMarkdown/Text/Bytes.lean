namespace CanonicalMarkdown

/-! Documents and everything written from them are sequences of bytes. -/

abbrev Bytes := List UInt8

namespace Bytes

def newline : UInt8 := 10

def space : UInt8 := 32

def tab : UInt8 := 9

def backtick : UInt8 := 96

def backslash : UInt8 := 92

def ofText (text : String) : Bytes :=
  text.toUTF8.data.toList

/-- The text these bytes encode, when they are well-formed UTF-8. -/
def toText? (bytes : Bytes) : Option String :=
  String.fromUTF8? ⟨bytes.toArray⟩

/-! Character classes of single bytes. -/

/-- Space, tab, line feed, form feed and carriage return. -/
def isBlank (byte : UInt8) : Bool :=
  byte == 32 || byte == 9 || byte == 10 || byte == 12 || byte == 13

/-- The printable ASCII characters that are neither letters, digits nor the space. -/
def isPunctuation (byte : UInt8) : Bool :=
  (33 ≤ byte && byte ≤ 47) || (58 ≤ byte && byte ≤ 64) ||
    (91 ≤ byte && byte ≤ 96) || (123 ≤ byte && byte ≤ 126)

/-! Lines keep the newline that ends them, so joining the lines gives the bytes back. -/

def lines : Bytes → List Bytes
  | [] => []
  | byte :: rest =>
      if byte = newline then
        [byte] :: lines rest
      else
        match lines rest with
        | [] => [[byte]]
        | line :: others => (byte :: line) :: others

def endsLine (line : Bytes) : Bool :=
  line.getLast? == some newline

def isBlankLine (line : Bytes) : Bool :=
  line.all isBlank

/-- The bytes without the longest tail on which `drop` holds throughout. -/
def dropTailWhile (drop : UInt8 → Bool) (bytes : Bytes) : Bytes :=
  (bytes.reverse.dropWhile drop).reverse

/-- The length of the longest run of `byte`, given the length of the run that reaches the start. -/
def longestRunFrom (byte : UInt8) (current : Nat) : Bytes → Nat
  | [] => current
  | next :: rest =>
      if next = byte then
        longestRunFrom byte (current + 1) rest
      else
        max current (longestRunFrom byte 0 rest)

def longestRun (byte : UInt8) (bytes : Bytes) : Nat :=
  longestRunFrom byte 0 bytes

end Bytes

end CanonicalMarkdown
