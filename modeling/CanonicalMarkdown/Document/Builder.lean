import CanonicalMarkdown.Document.Event
import CanonicalMarkdown.Document.Tree
import CanonicalMarkdown.Text.Blank
import CanonicalMarkdown.Yaml.Reader

namespace CanonicalMarkdown.Document

inductive BuildError where
  | frontMatter (cause : Yaml.ReadError)
  | missingParent (parent : NodeId)
  deriving DecidableEq, Repr

def BuildError.message : BuildError → String
  | .frontMatter cause => "invalid front matter: " ++ cause.message
  | .missingParent parent => "there is no node " ++ toString parent

/-! Between its start and its end a tag has a frame. -/

inductive Frame where
  | node (id : NodeId)
  /-- Holds inline content that stands directly in a list item. -/
  | textBlock (id : NodeId)
  /-- The text of an automatic link repeats its address and is dropped. -/
  | autoLink
  | image (destination title : String)
  | indentedCode
  | fencedCode (language : Option String)
  | html
  | frontMatter
  /-- Markup that has no node; what it contains goes to the frame around it. -/
  | transparent
  deriving DecidableEq, Repr

/-- Where content goes. -/
inductive Target where
  | tree
  | nowhere
  | alt
  | lines
  | frontMatter
  deriving DecidableEq, Repr

namespace Frame

def isTransparent : Frame → Bool
  | .transparent => true
  | _ => false

def target : Frame → Target
  | .autoLink => .nowhere
  | .image _ _ => .alt
  | .indentedCode | .fencedCode _ | .html => .lines
  | .frontMatter => .frontMatter
  | .node _ | .textBlock _ | .transparent => .tree

/-- The node a frame appends to. -/
def id? : Frame → Option NodeId
  | .node id | .textBlock id => some id
  | _ => none

end Frame

/-! The tree grows with each event. -/

structure Builder where
  source : Source
  tree : Tree := Tree.new
  /-- From the innermost outwards. -/
  frames : List Frame := []
  /-- The lines of the code or markup being captured. -/
  lines : List Segment := []
  /-- The text of the image being captured. -/
  alt : String := ""
  /-- The front matter being captured. -/
  frontMatter : String := ""
  metadata : Option Yaml.Value := none

namespace Builder

abbrev Step (α : Type) := Builder → Except BuildError (α × Builder)

def target (builder : Builder) : Target :=
  ((builder.frames.find? (!·.isTransparent)).map Frame.target).getD .tree

def parent (builder : Builder) : NodeId :=
  (builder.frames.findSome? Frame.id?).getD Tree.rootId

def push (frame : Frame) (builder : Builder) : Builder :=
  { builder with frames := frame :: builder.frames }

def closeTextBlock (builder : Builder) : Builder :=
  match builder.frames with
  | .textBlock _ :: rest => { builder with frames := rest }
  | _ => builder

/-! Appending. -/

def appendTo (parent : NodeId) (node : Node) : Step NodeId := fun builder =>
  match builder.tree.append? parent node with
  | none => .error (.missingParent parent)
  | some (id, tree) => .ok (id, { builder with tree })

def append (node : Node) : Step NodeId := fun builder =>
  appendTo builder.parent node builder

/-- Whether the innermost frame is that of a list item. -/
def isInItem (builder : Builder) : Bool :=
  match builder.frames with
  | .node id :: _ => (builder.tree.node? id).any (·.kind == .listItem)
  | _ => false

/-- The node for inline content. In a list item that is a text block, opened if there is none. -/
def inlineParent : Step NodeId := fun builder =>
  if builder.isInItem then do
    let (block, builder) ← builder.append .textBlock
    return (block, builder.push (.textBlock block))
  else
    return (builder.parent, builder)

def appendInline (node : Node) : Step NodeId := fun builder => do
  let (parent, builder) ← builder.inlineParent
  builder.appendTo parent node

def openBlock (node : Node) (builder : Builder) : Except BuildError Builder := do
  let (id, builder) ← builder.append node
  return builder.push (.node id)

def openInline (node : Node) (builder : Builder) : Except BuildError Builder := do
  let (id, builder) ← builder.appendInline node
  return builder.push (.node id)

def addBlock (node : Node) (builder : Builder) : Except BuildError Builder := do
  return (← builder.append node).2

def addInline (node : Node) (builder : Builder) : Except BuildError Builder := do
  return (← builder.appendInline node).2

/-! Tags. -/

def openTag (tag : Tag) (builder : Builder) : Except BuildError Builder :=
  match tag with
  | .paragraph => builder.openBlock .paragraph
  | .heading level => builder.openBlock (.heading level.toNat)
  | .blockquote => builder.openBlock .blockquote
  | .indentedCode => return { builder with lines := [] }.push .indentedCode
  | .fencedCode info =>
      return { builder with lines := [] }.push (.fencedCode (Text.firstWord? info))
  | .htmlBlock => return { builder with lines := [] }.push .html
  | .list start => builder.openBlock (.list start.isSome (start.getD 1))
  | .item => builder.openBlock .listItem
  | .emphasis => builder.openInline (.emphasis 1)
  | .strong => builder.openInline (.emphasis 2)
  | .strikethrough => builder.openInline .strikethrough
  | .link type destination title =>
      if type.isAutomatic then do
        return (← builder.addInline (.autoLink destination)).push .autoLink
      else
        builder.openInline (.link destination title)
  | .image destination title => return { builder with alt := "" }.push (.image destination title)
  | .frontMatter => return { builder with frontMatter := "" }.push .frontMatter
  | .footnoteDefinition | .table | .tableHead | .tableRow | .tableCell | .definitionList
  | .definitionTitle | .definitionDetail | .superscript | .subscript =>
      return builder.push .transparent

/-- Markup inside captured content leaves no trace but what it contains. -/
def start (tag : Tag) (builder : Builder) : Except BuildError Builder :=
  if builder.target != .tree then
    return builder.push .transparent
  else
    (if tag.isBlock then builder.closeTextBlock else builder).openTag tag

/-- Blank front matter is none at all. -/
def readMetadata (text : String) (builder : Builder) : Except BuildError Builder :=
  if Text.isBlankText text then
    .ok { builder with metadata := none }
  else match Yaml.Value.read text with
    | .ok value => .ok { builder with metadata := some value }
    | .error cause => .error (.frontMatter cause)

def closeFrame (frame : Frame) (builder : Builder) : Except BuildError Builder :=
  match frame with
  | .node _ | .textBlock _ | .autoLink | .transparent => .ok builder
  | .indentedCode => { builder with lines := [] }.addBlock (.codeBlock builder.lines)
  | .fencedCode language =>
      { builder with lines := [] }.addBlock (.fencedCodeBlock language builder.lines)
  | .html => { builder with lines := [] }.addBlock (.htmlBlock builder.lines none)
  | .image destination title =>
      { builder with alt := "" }.addInline (.image destination title builder.alt)
  | .frontMatter => { builder with frontMatter := "" }.readMetadata builder.frontMatter

/-- An end that nothing has started is passed over. -/
def stop (builder : Builder) : Except BuildError Builder :=
  let builder := builder.closeTextBlock
  match builder.frames with
  | [] => .ok builder
  | frame :: rest => { builder with frames := rest }.closeFrame frame

/-! Content. -/

/-- A punctuation character is reported without the backslash that escapes it. Written back bare it
would be markup, so the range is widened to the backslash. -/
def isEscaped (source : Source) (text : String) (range : Segment) : Bool :=
  match (Bytes.ofText text).head? with
  | none => false
  | some byte =>
      0 < range.start && source[range.start - 1]? == some Bytes.backslash &&
        Bytes.isPunctuation byte && source[range.start]? == some byte

def textSegment (source : Source) (text : String) (range : Segment) : Segment :=
  if isEscaped source text range then ⟨range.start - 1, range.stop⟩ else range

def text (text : String) (range : Segment) (builder : Builder) : Except BuildError Builder :=
  match builder.target with
  | .tree => builder.addInline (.plainText (textSegment builder.source text range))
  | .alt => return { builder with alt := builder.alt ++ text }
  | .lines => return { builder with lines := builder.lines ++ [range] }
  | .frontMatter => return { builder with frontMatter := builder.frontMatter ++ text }
  | .nowhere => return builder

def codeSpan (code : String) (builder : Builder) : Except BuildError Builder :=
  match builder.target with
  | .tree => do
      let (span, builder) ← builder.appendInline .codeSpan
      return (← builder.appendTo span (.string code)).2
  | .alt => return { builder with alt := builder.alt ++ code }
  | .nowhere | .lines | .frontMatter => return builder

def html (html : String) (range : Segment) (builder : Builder) : Except BuildError Builder :=
  match builder.target with
  | .tree => builder.addInline (.rawHtml [range])
  | .lines => return { builder with lines := builder.lines ++ [range] }
  | .alt => return { builder with alt := builder.alt ++ html }
  | .nowhere | .frontMatter => return builder

/-- The node with a line break after its text, unless it can take none. -/
def broken? (hard : Bool) : Node → Option Node
  | .text segment false soft hardBefore =>
      some (.text segment false (soft || !hard) (hardBefore || hard))
  | _ => none

/-- The last text of the line takes the break; without one the break stands alone. -/
def lineBreak (hard : Bool) (range : Segment) (builder : Builder) : Except BuildError Builder :=
  match builder.target with
  | .tree => do
      let (parent, builder) ← builder.inlineParent
      let last := builder.tree.lastOf parent
      match last, (last.bind builder.tree.node?).bind (broken? hard) with
      | some id, some node => return { builder with tree := builder.tree.set id node }
      | _, _ => return (← builder.appendTo parent (.lineBreak range.start hard)).2
  | .alt => return { builder with alt := builder.alt ++ " " }
  | .nowhere | .lines | .frontMatter => return builder

def rule (builder : Builder) : Except BuildError Builder :=
  if builder.target == .tree then builder.closeTextBlock.addBlock .thematicBreak
  else return builder

def raw (range : Segment) (builder : Builder) : Except BuildError Builder :=
  if builder.target == .tree then builder.addInline (.rawText range) else return builder

def event (event : Event) (range : Segment) (builder : Builder) : Except BuildError Builder :=
  match event with
  | .start tag => builder.start tag
  | .stop => builder.stop
  | .text text => builder.text text range
  | .code text => builder.codeSpan text
  | .html text | .inlineHtml text => builder.html text range
  | .softBreak => builder.lineBreak false range
  | .hardBreak => builder.lineBreak true range
  | .rule => builder.rule
  | .footnoteReference _ | .inlineMath _ | .displayMath _ | .taskMarker _ => builder.raw range

def events : EventStream → Builder → Except BuildError Builder
  | [], builder => .ok builder
  | (event, range) :: rest, builder => do (← builder.event event range).events rest

end Builder

/-- A document as it was read. -/
structure Parsed where
  tree : Tree
  metadata : Option Yaml.Value

/-- Frames still open at the end of the stream are dropped with what they captured. -/
def Parsed.ofEvents (source : Source) (stream : EventStream) : Except BuildError Parsed := do
  let builder ← Builder.events stream { source }
  return ⟨builder.tree, builder.metadata⟩

end CanonicalMarkdown.Document
