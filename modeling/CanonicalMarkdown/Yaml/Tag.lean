import CanonicalMarkdown.Text.Bytes

namespace CanonicalMarkdown.Yaml

/-! A tag is one of the format itself, one of the document's own, or one that changes nothing but
that a scalar is a string. -/

inductive Tag where
  | absent
  | core (name : String)
  | own (name : String)
  | foreign
  deriving DecidableEq, Repr

namespace Tag

/-- Takes the exclamation mark off a name that has more to it. -/
def bare (name : String) : String :=
  match name.toList with
  | '!' :: c :: rest => String.ofList (c :: rest)
  | _ => name

/-- The name of an own tag as it is written. -/
def written (name : String) : String := if name.startsWith "!" then name else "!" ++ name

def coreLead : String := "tag:yaml.org,2002:"

def ofText (text : String) : Tag :=
  if text.startsWith "!" then .own (bare (bare text))
  else if text.startsWith coreLead then .core (text.drop coreLead.length).toString
  else .foreign

/-- The tag that bytes spell. One of the document's own that is no text counts as absent. -/
def ofBytes (bytes : Bytes) : Tag :=
  match bytes.toText? with
  | some text => ofText text
  | none => if bytes.head? = some 33 then .absent else .foreign

end Tag

end CanonicalMarkdown.Yaml
