import CanonicalMarkdown.Document.Segment

namespace CanonicalMarkdown.Document

inductive Kind where
  | document
  | heading
  | paragraph
  | textBlock
  | blockquote
  | list
  | listItem
  | codeBlock
  | fencedCodeBlock
  | htmlBlock
  | thematicBreak
  | strikethrough
  | autoLink
  | codeSpan
  | emphasis
  | link
  | image
  | rawHtml
  | text
  | string
  deriving DecidableEq, Repr

namespace Kind

def all : List Kind :=
  [.document, .heading, .paragraph, .textBlock, .blockquote, .list, .listItem, .codeBlock,
    .fencedCodeBlock, .htmlBlock, .thematicBreak, .strikethrough, .autoLink, .codeSpan, .emphasis,
    .link, .image, .rawHtml, .text, .string]

def name : Kind → String
  | .document => "Document"
  | .heading => "Heading"
  | .paragraph => "Paragraph"
  | .textBlock => "TextBlock"
  | .blockquote => "Blockquote"
  | .list => "List"
  | .listItem => "ListItem"
  | .codeBlock => "CodeBlock"
  | .fencedCodeBlock => "FencedCodeBlock"
  | .htmlBlock => "HtmlBlock"
  | .thematicBreak => "ThematicBreak"
  | .strikethrough => "Strikethrough"
  | .autoLink => "AutoLink"
  | .codeSpan => "CodeSpan"
  | .emphasis => "Emphasis"
  | .link => "Link"
  | .image => "Image"
  | .rawHtml => "RawHtml"
  | .text => "Text"
  | .string => "String"

def ofName? (name : String) : Option Kind :=
  all.find? (·.name == name)

/-- Position in `Kind.all`. -/
def index (kind : Kind) : Nat := all.idxOf kind

def isInline : Kind → Bool
  | .strikethrough | .autoLink | .codeSpan | .emphasis | .link | .image | .rawHtml | .text
  | .string => true
  | .document | .heading | .paragraph | .textBlock | .blockquote | .list | .listItem | .codeBlock
  | .fencedCodeBlock | .htmlBlock | .thematicBreak => false

theorem mem_all (kind : Kind) : kind ∈ all := by
  cases kind <;> decide

end Kind

inductive Node where
  | document
  | heading (level : Nat)
  | paragraph
  /-- The inline content of a list item that has no paragraph around it. -/
  | textBlock
  | blockquote
  | list (ordered : Bool) (start : Nat)
  | listItem
  | codeBlock (lines : List Segment)
  | fencedCodeBlock (language : Option String) (lines : List Segment)
  | htmlBlock (lines : List Segment) (closure : Option Segment)
  | thematicBreak
  | strikethrough
  | autoLink (url : String)
  | codeSpan
  | emphasis (level : Nat)
  | link (destination title : String)
  | image (destination title alt : String)
  | rawHtml (segments : List Segment)
  | text (segment : Segment) (raw softBreak hardBreak : Bool)
  | string (value : String)
  deriving DecidableEq, Repr

namespace Node

def kind : Node → Kind
  | .document => .document
  | .heading _ => .heading
  | .paragraph => .paragraph
  | .textBlock => .textBlock
  | .blockquote => .blockquote
  | .list _ _ => .list
  | .listItem => .listItem
  | .codeBlock _ => .codeBlock
  | .fencedCodeBlock _ _ => .fencedCodeBlock
  | .htmlBlock _ _ => .htmlBlock
  | .thematicBreak => .thematicBreak
  | .strikethrough => .strikethrough
  | .autoLink _ => .autoLink
  | .codeSpan => .codeSpan
  | .emphasis _ => .emphasis
  | .link _ _ => .link
  | .image _ _ _ => .image
  | .rawHtml _ => .rawHtml
  | .text _ _ _ _ => .text
  | .string _ => .string

def isInline (node : Node) : Bool := node.kind.isInline

/-- Text over a range of the source that ends no line. -/
def plainText (segment : Segment) : Node := .text segment false false false

/-- Source text that stands for itself. -/
def rawText (segment : Segment) : Node := .text segment true false false

/-- A line break with no text before it. -/
def lineBreak (offset : Nat) (hard : Bool) : Node := .text ⟨offset, offset⟩ false (!hard) hard

def isEmphasis (level : Nat) : Node → Bool
  | .emphasis own => own == level
  | _ => false

end Node

end CanonicalMarkdown.Document
