import CanonicalMarkdown.Render.Visit

namespace CanonicalMarkdown.Render.Inline

open Document Output

def autoLink : RenderFn := fun visit =>
  match visit.phase with
  | .enter =>
      let url := match visit.node with
        | .autoLink url => Layout.text url
        | _ => .done
      .skipChildren (.text "<" ++ url)
  | .leave => .descend (.text ">")

/-! Code spans. Code with a backtick in it stands between two backticks, and a backtick at either
end is kept apart from them by a space. -/

/-- The bytes a node that holds text stands for. -/
def literal (source : Source) : Node → Bytes
  | .text segment _ _ _ => segment.value source
  | .string value => Bytes.ofText value
  | _ => []

def codeDelimiter (content : Bytes) : Bytes :=
  if content.contains Bytes.backtick then [Bytes.backtick, Bytes.backtick] else [Bytes.backtick]

def codePadding (content : Bytes) : Bytes :=
  if content.head? = some Bytes.backtick ∨ content.getLast? = some Bytes.backtick then
    [Bytes.space]
  else
    []

def codeSpan : RenderFn := fun visit =>
  let pieces := visit.element.children.map fun child => literal visit.context.source child.node
  let content := pieces.head?.getD []
  match visit.phase with
  | .enter =>
      let opening := Layout.bytes (codeDelimiter content ++ codePadding content)
      .skipChildren (opening ++ .concat (pieces.map .bytes))
  | .leave => .descend (.bytes (codePadding content ++ codeDelimiter content))

/-! Emphasis. -/

/-- A delimiter is left out where a neighbour or an enclosing inline node of the same level makes
it redundant. -/
def isMerged (place : Place) (level : Nat) (phase : Phase) : Bool :=
  let neighbour := match phase with
    | .enter => place.previous.head?
    | .leave => place.next
  neighbour.any (·.isEmphasis level) || place.inlineAncestors.any (·.isEmphasis level)

def escapeByte : UInt8 := 27

def terminalCode (letter : String) : Bytes := escapeByte :: Bytes.ofText ("[" ++ letter ++ "m")

def terminalStyle? : (level : Nat) → Option Bytes
  | 1 => some (terminalCode "3")
  | 2 => some (terminalCode "1")
  | 3 => some (terminalCode "4")
  | _ => none

def terminalReset : Bytes := terminalCode "0"

def delimiter? : (level : Nat) → Option Bytes
  | 1 => some (Bytes.ofText "*")
  | 2 => some (Bytes.ofText "**")
  | _ => none

def emphasisMark? (styled : Bool) (phase : Phase) (level : Nat) : Option Bytes :=
  match styled, phase with
  | true, .enter => terminalStyle? level
  | true, .leave => some terminalReset
  | false, _ => delimiter? level

def emphasis : RenderFn := fun visit =>
  let level := match visit.node with
    | .emphasis level => level
    | _ => 1
  if isMerged visit.place level visit.phase then .nothing
  else match emphasisMark? visit.context.options.terminalStyling visit.phase level with
    | some mark => .descend (.bytes mark)
    | none => .descend (.fail (.unsupportedEmphasis level))

/-! Links and images. -/

def title (title : String) : Layout :=
  if title.isEmpty then .done else .text (" \"" ++ title ++ "\"")

def target (destination label : String) : Layout :=
  .text ("](" ++ destination) ++ title label ++ .text ")"

def link : RenderFn := fun visit =>
  match visit.phase with
  | .enter => .descend (.text "[")
  | .leave =>
      match visit.node with
      | .link destination label => .descend (target destination label)
      | _ => .nothing

/-- An image directly in the document is a block of its own. -/
def image : RenderFn := fun visit =>
  match visit.phase with
  | .enter =>
      let shown := match visit.node with
        | .image destination label alt => .text ("![" ++ alt) ++ target destination label
        | _ => .done
      let isBlock := visit.place.parent?.all (·.kind == .document)
      .skipChildren (shown ++ .when isBlock .blankLine)
  | .leave => .nothing

def rawHtml : RenderFn := fun visit =>
  match visit.phase, visit.node with
  | .enter, .rawHtml segments =>
      .skipChildren (.concat (segments.map fun segment =>
        .bytes (segment.value visit.context.source)))
  | _, _ => .skipChildren .done

/-! Text. -/

/-- A blank line inside a tight item would make the list loose. -/
def lineBreak (options : Options) (place : Place) (soft hard : Bool) : Layout :=
  if soft then
    if options.hardWraps && !place.isInTextBlock then .blankLine else .newline
  else if hard then
    if place.isInTextBlock then .newline else .blankLine
  else
    .done

def text : RenderFn := fun visit =>
  match visit.phase, visit.node with
  | .enter, .text segment raw soft hard =>
      let ending := if raw then .done else lineBreak visit.context.options visit.place soft hard
      .descend (.bytes (segment.value visit.context.source) ++ ending)
  | _, _ => .nothing

def string : RenderFn := fun visit =>
  match visit.phase with
  | .enter =>
      match visit.node with
      | .string value => .descend (.text value)
      | _ => .nothing
  | .leave => .descend (.when (visit.place.next.any (·.kind == .list)) .newline)

end CanonicalMarkdown.Render.Inline
