import CanonicalMarkdown.Document.Tree
import CanonicalMarkdown.Text.Invisible

namespace CanonicalMarkdown.Document

/-! Descriptions of nodes for people who look into a tree. -/

namespace Describe

def codePoint (c : Char) : String :=
  "\\u\x7b" ++ String.ofList (Nat.toDigits 16 c.toNat) ++ "\x7d"

def character (c : Char) : String :=
  if c == '"' then "\\\""
  else if c == '\\' then "\\\\"
  else if c == '\n' then "\\n"
  else if c == '\r' then "\\r"
  else if c == '\t' then "\\t"
  else if c == Char.ofNat 0 then "\\0"
  else if Text.isInvisible c then codePoint c
  else c.toString

def quoted (text : String) : String :=
  "\"" ++ String.join (text.toList.map character) ++ "\""

def boolean (value : Bool) : String := if value then "true" else "false"

def optional {α : Type} (describe : α → String) : Option α → String
  | none => "None"
  | some value => "Some(" ++ describe value ++ ")"

def list (items : List String) : String := "[" ++ String.intercalate ", " items ++ "]"

/-- A name and, in braces, its fields. -/
def record (name : String) (fields : List (String × String)) : String :=
  let fields := fields.map fun field => field.1 ++ ": " ++ field.2
  name ++ " \x7b " ++ String.intercalate ", " fields ++ " \x7d"

end Describe

open Describe

def Segment.describe (segment : Segment) : String :=
  record "Segment" [("start", toString segment.start), ("end", toString segment.stop)]

def Segment.describeAll (segments : List Segment) : String := list (segments.map describe)

namespace Node

def fields : Node → List (String × String)
  | .document | .paragraph | .textBlock | .blockquote | .listItem | .thematicBreak
  | .strikethrough | .codeSpan => []
  | .heading level | .emphasis level => [("level", toString level)]
  | .list ordered start => [("ordered", boolean ordered), ("start", toString start)]
  | .codeBlock lines => [("lines", Segment.describeAll lines)]
  | .fencedCodeBlock language lines =>
      [("language", optional quoted language), ("lines", Segment.describeAll lines)]
  | .htmlBlock lines closure =>
      [("lines", Segment.describeAll lines), ("closure", optional Segment.describe closure)]
  | .autoLink url => [("url", quoted url)]
  | .link destination title => [("destination", quoted destination), ("title", quoted title)]
  | .image destination title alt =>
      [("destination", quoted destination), ("title", quoted title), ("alt", quoted alt)]
  | .rawHtml segments => [("segments", Segment.describeAll segments)]
  | .text segment raw softBreak hardBreak =>
      [("segment", segment.describe), ("raw", boolean raw), ("soft_break", boolean softBreak),
        ("hard_break", boolean hardBreak)]
  | .string value => [("value", quoted value)]

def describe (node : Node) : String :=
  if node.fields.isEmpty then node.kind.name else record node.kind.name node.fields

end Node

def Tree.describe? (tree : Tree) (id : NodeId) : Option String :=
  (tree.node? id).map fun node =>
    record "NodeRef" [("id", "NodeId(" ++ toString id ++ ")"), ("node", node.describe)]

end CanonicalMarkdown.Document
