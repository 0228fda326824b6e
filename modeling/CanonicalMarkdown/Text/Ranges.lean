namespace CanonicalMarkdown.Text

/-! Sets of characters. -/

/-- The first and the last of each run of characters. -/
abbrev Ranges := List (Nat × Nat)

def Ranges.contains (ranges : Ranges) (c : Char) : Bool :=
  ranges.any fun range => range.1 ≤ c.toNat && c.toNat ≤ range.2

end CanonicalMarkdown.Text
