import CanonicalMarkdown.Document.Event

namespace CanonicalMarkdown.Document

/-! The plainest reading of a text: lines that are not blank make up paragraphs, and nothing is
markup. -/

namespace Prose

def closing (offset : Nat) (inParagraph : Bool) : EventStream :=
  if inParagraph then [(.stop, ⟨offset, offset⟩)] else []

/-- What comes before a line, inside a paragraph or at its start. -/
def opening (offset : Nat) (inParagraph : Bool) : EventStream :=
  if inParagraph then [(.softBreak, ⟨offset - 1, offset⟩)]
  else [(.start .paragraph, ⟨offset, offset⟩)]

def ofLines (offset : Nat) (inParagraph : Bool) : List Bytes → EventStream
  | [] => closing offset inParagraph
  | line :: rest =>
      if line.isBlankLine then
        closing offset inParagraph ++ ofLines (offset + line.length) false rest
      else
        let body := line.dropTailWhile (· == Bytes.newline)
        opening offset inParagraph ++
          (.text (body.toText?.getD ""), ⟨offset, offset + body.length⟩) ::
            ofLines (offset + line.length) true rest

def read (text : String) : EventStream := ofLines 0 false (Bytes.ofText text).lines

end Prose

end CanonicalMarkdown.Document
