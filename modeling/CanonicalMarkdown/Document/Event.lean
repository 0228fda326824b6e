import CanonicalMarkdown.Document.Segment

namespace CanonicalMarkdown.Document

/-! What a Markdown parser reports, in the order of the source. -/

inductive HeadingLevel where
  | one
  | two
  | three
  | four
  | five
  | six
  deriving DecidableEq, Repr

namespace HeadingLevel

def toNat : HeadingLevel → Nat
  | .one => 1
  | .two => 2
  | .three => 3
  | .four => 4
  | .five => 5
  | .six => 6

def ofNat? : Nat → Option HeadingLevel
  | 1 => some .one
  | 2 => some .two
  | 3 => some .three
  | 4 => some .four
  | 5 => some .five
  | 6 => some .six
  | _ => none

end HeadingLevel

inductive LinkType where
  | autolink
  | email
  | inline
  | reference
  | collapsed
  | shortcut
  deriving DecidableEq, Repr

/-- Whether the text of the link is its address. -/
def LinkType.isAutomatic : LinkType → Bool
  | .autolink | .email => true
  | .inline | .reference | .collapsed | .shortcut => false

inductive Tag where
  | paragraph
  | heading (level : HeadingLevel)
  | blockquote
  | indentedCode
  /-- The info string is what follows the opening fence. -/
  | fencedCode (info : String)
  | htmlBlock
  /-- A list with a start is ordered. -/
  | list (start : Option Nat)
  | item
  | footnoteDefinition
  | table
  | tableHead
  | tableRow
  | tableCell
  | definitionList
  | definitionTitle
  | definitionDetail
  | emphasis
  | strong
  | strikethrough
  | superscript
  | subscript
  | link (type : LinkType) (destination title : String)
  | image (destination title : String)
  | frontMatter
  deriving DecidableEq, Repr

/-- Whether the tag starts a block, which ends the run of inline content before it. -/
def Tag.isBlock : Tag → Bool
  | .paragraph | .heading _ | .blockquote | .indentedCode | .fencedCode _ | .htmlBlock | .list _
  | .item | .footnoteDefinition | .table | .definitionList | .frontMatter => true
  | .tableHead | .tableRow | .tableCell | .definitionTitle | .definitionDetail | .emphasis
  | .strong | .strikethrough | .superscript | .subscript | .link _ _ _ | .image _ _ => false

inductive Event where
  | start (tag : Tag)
  /-- Ends whatever was started last and has not ended. -/
  | stop
  | text (text : String)
  | code (text : String)
  | html (text : String)
  | inlineHtml (text : String)
  | softBreak
  | hardBreak
  | rule
  | footnoteReference (label : String)
  | inlineMath (text : String)
  | displayMath (text : String)
  | taskMarker (checked : Bool)
  deriving DecidableEq, Repr

/-- Each event with the range of the source it covers. -/
abbrev EventStream := List (Event × Segment)

end CanonicalMarkdown.Document
