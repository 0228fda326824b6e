namespace CanonicalMarkdown.Render

structure Options where
  /-- Line breaks of the source become paragraph breaks. -/
  hardWraps : Bool := false
  /-- Emphasis is shown by terminal escapes in place of delimiters. -/
  terminalStyling : Bool := false
  deriving DecidableEq, Repr

end CanonicalMarkdown.Render
