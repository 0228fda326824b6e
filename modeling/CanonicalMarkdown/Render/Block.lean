import CanonicalMarkdown.Render.Visit

namespace CanonicalMarkdown.Render.Block

open Document Output

/-! A block is followed by a blank line. Inside a list item blocks stand closer together, and what
is nested is laid out through a layer on the writer. -/

def heading : RenderFn := fun visit =>
  let level := match visit.node with
    | .heading level => level
    | _ => 1
  match visit.phase with
  | .enter => .descend (.bytes (List.replicate level 35 ++ [Bytes.space]))
  | .leave => .descend .blankLine

def thematicBreak : RenderFn := fun visit =>
  match visit.phase with
  | .enter => .descend (.text "***")
  | .leave => .descend .blankLine

def paragraph : RenderFn := fun visit =>
  let inList := visit.place.isInList
  match visit.phase with
  | .enter =>
      if inList && visit.place.hasPrevious then
        .skipChildren (.newline ++ visit.children ++ .newline)
      else
        .skipChildren visit.children
  | .leave =>
      if !inList then .descend .blankLine
      else .descend (.when visit.place.hasNext .newline)

def textBlock : RenderFn := fun visit =>
  match visit.phase with
  | .enter => .nothing
  | .leave => .descend (.when visit.place.hasNext .newline)

def quoteMarker : Bytes := Bytes.ofText "> "

def quoted (body : Layout) : Layout :=
  .through (.margin quoteMarker true) (.through (.trim Bytes.newline 0) body)

def blockquote : RenderFn := fun visit =>
  match visit.phase with
  | .enter =>
      let separator := Layout.when (visit.place.isInList && visit.place.hasPrevious) .newline
      .skipChildren (separator ++ quoted visit.children)
  | .leave => .descend .blankLine

def list : RenderFn := fun visit =>
  match visit.phase with
  | .enter => .nothing
  | .leave =>
      if visit.place.parent?.any (·.kind == .listItem) then
        .descend (.when visit.place.hasNext .newline)
      else
        .descend .blankLine

def isOrderedList : Node → Bool
  | .list ordered _ => ordered
  | _ => false

/-- A dash, or in an ordered list the position of the item. -/
def itemMarker (place : Place) : Bytes :=
  if place.parent?.any isOrderedList then Bytes.ofText (toString place.itemPosition ++ ". ")
  else Bytes.ofText "- "

def hung (marker : Bytes) (body : Layout) : Layout :=
  .through (.indent marker.length) (.bytes marker ++ body)

def listItem : RenderFn := fun visit =>
  match visit.phase with
  | .enter => .skipChildren (hung (itemMarker visit.place) visit.children)
  | .leave =>
      let endsWithQuote := visit.element.children.getLast?.any (·.kind == .blockquote)
      .descend (.when (visit.place.hasNext && !endsWithQuote) .newline)

/-! Code. -/

/-- The language and the lines of a block of code. -/
def codeContent : Node → Option String × List Segment
  | .codeBlock lines => (none, lines)
  | .fencedCodeBlock language lines => (language, lines)
  | _ => (none, [])

/-- Longer than every run of backticks in the code, and at least three. -/
def fenceLength (code : Bytes) : Nat := max (code.longestRun Bytes.backtick) 2 + 1

def fence (code : Bytes) : Bytes := List.replicate (fenceLength code) Bytes.backtick

def fencedCodeBlock : RenderFn := fun visit =>
  let (language, lines) := codeContent visit.node
  let fence := fence (visit.context.join lines)
  match visit.phase with
  | .enter =>
      let language := language.getD ""
      .descend (.bytes fence ++ .text language ++ .newline ++ visit.context.code language lines)
  | .leave => .descend (.bytes fence ++ .blankLine)

def isIndentation (byte : UInt8) : Bool := byte == Bytes.space || byte == Bytes.tab

def indentation (line : Bytes) : Nat := (line.takeWhile isIndentation).length

/-- The least indentation of the lines that are not blank. -/
def commonIndent (code : Bytes) : Nat :=
  ((code.lines.filter (!Bytes.isBlankLine ·)).map indentation).min?.getD 0

/-- Each line without the common indentation, and blank lines without anything. -/
def rebased (code : Bytes) : List Bytes :=
  let strip := commonIndent code
  code.lines.map fun line => if line.isBlankLine then [Bytes.newline] else line.drop strip

def codeIndent : Nat := 4

def indentedCode (code : Bytes) : Layout :=
  .newline ++
    .through (Layer.indent codeIndent).atLineStart (.concat ((rebased code).map .bytes))

/-- Fenced outside lists, and indented anew inside them. -/
def codeBlock : RenderFn := fun visit =>
  if !visit.place.isInList then
    fencedCodeBlock visit
  else
    match visit.phase with
    | .enter => .descend (indentedCode (visit.context.join (codeContent visit.node).2))
    | .leave => .nothing

def htmlLanguage : String := "html"

def htmlBlock : RenderFn := fun visit =>
  match visit.node with
  | .htmlBlock lines closure =>
      match visit.phase with
      | .enter => .descend (visit.context.code htmlLanguage lines)
      | .leave =>
          let closing := closure.map fun segment =>
            Layout.bytes (segment.value visit.context.source)
          .descend (closing.getD .done ++ .newline)
  | _ => .nothing

end CanonicalMarkdown.Render.Block
