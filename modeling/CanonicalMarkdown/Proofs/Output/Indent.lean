import CanonicalMarkdown.Proofs.Output.Margin

namespace CanonicalMarkdown

/-! Every line but the last ends with a newline. -/

theorem Bytes.exists_line_eq {data line next : Bytes} {front back : List Bytes}
    (hlines : data.lines = front ++ line :: next :: back) : ∃ text, line = text ++ [newline] := by
  induction data generalizing front line with
  | nil =>
      rw [lines] at hlines
      simp at hlines
  | cons byte rest ih =>
      rw [lines] at hlines
      split at hlines
      · next hbyte =>
          cases front with
          | nil =>
              obtain ⟨rfl, -⟩ := List.cons.inj hlines
              exact ⟨[], by rw [hbyte]; rfl⟩
          | cons first front => exact ih (List.cons.inj hlines).2
      · split at hlines
        · cases front <;> simp at hlines
        · next first others hrest =>
            cases front with
            | nil =>
                obtain ⟨rfl, hothers⟩ := List.cons.inj hlines
                have hsplit : lines rest = [] ++ first :: next :: back := by
                  rw [hrest, hothers]
                  rfl
                obtain ⟨text, rfl⟩ := ih hsplit
                exact ⟨byte :: text, rfl⟩
            | cons other front =>
                obtain ⟨-, hothers⟩ := List.cons.inj hlines
                have hsplit : lines rest = (first :: front) ++ line :: next :: back := by
                  rw [hrest, hothers]
                  rfl
                exact ih hsplit

namespace Output

open Layer

/-! Text that hangs under its first line: the other lines are indented, except for empty ones. -/

def hungLine (width : Nat) (line : Bytes) : Bytes :=
  (if line = [Bytes.newline] then [] else List.replicate width Bytes.space) ++ line

def hungLines (width : Nat) (data : Bytes) : Bytes :=
  match data.lines with
  | [] => []
  | first :: rest => first ++ rest.flatMap (hungLine width)

namespace Layer

def spaces (width : Nat) : Bytes := List.replicate width Bytes.space

theorem spaces_append (first second : Nat) :
    spaces first ++ spaces second = spaces (first + second) :=
  List.replicate_append_replicate

theorem newline_not_mem_spaces (width : Nat) : Bytes.newline ∉ spaces width := by
  intro hmem
  cases List.eq_of_mem_replicate hmem

theorem rdropWhile_spaces (width : Nat) : (spaces width).rdropWhile Bytes.isBlank = [] := by
  rw [List.rdropWhile_eq_nil_iff]
  intro byte hbyte
  rw [List.eq_of_mem_replicate hbyte]
  rfl

theorem marked_spaces (width : Nat) (data : Bytes) :
    marked (spaces width) false data = hungLines width data := by
  have hline : margined (spaces width) = hungLine width := by
    funext line
    rw [margined, rdropWhile_spaces]
    rfl
  rw [marked_eq_marginedFrom, hungLines]
  cases data.lines with
  | nil => rfl
  | cons first rest => simp [marginedFrom, hline]

theorem lead_spaces_newline (width : Nat) : lead (spaces width) [Bytes.newline] = [] :=
  rdropWhile_spaces width

/-- One indentation in another is an indentation by both. -/
theorem marked_spaces_marked (inner outer : Nat) (atLineStart : Bool) (data : Bytes) :
    marked (spaces outer) atLineStart (marked (spaces inner) atLineStart data) =
      marked (spaces (inner + outer)) atLineStart data := by
  rw [marked_marked (newline_not_mem_spaces inner), spaces_append, Nat.add_comm]

theorem marked_zero (atLineStart : Bool) (data : Bytes) :
    marked (spaces 0) atLineStart data = data := by
  induction data generalizing atLineStart with
  | nil => rfl
  | cons byte rest ih =>
      have hlead : lead (spaces 0) [byte] = [] := ite_self []
      rw [marked, ih, hlead]
      simp

end Layer

/-! Text found in another text, hung there by the given width. -/

def Hangs (width : Nat) (inner outer : Bytes) : Prop :=
  ∃ before after, outer = before ++ hungLines width inner ++ after

namespace Hangs

variable {width outerWidth : Nat} {inner middle outer : Bytes}

theorem of_isInfix (hpart : inner <:+: outer) : Hangs 0 inner outer := by
  obtain ⟨before, after, rfl⟩ := hpart
  refine ⟨before, after, ?_⟩
  rw [← marked_spaces, marked_zero]

theorem append (hhangs : Hangs width inner outer) (front back : Bytes) :
    Hangs width inner (front ++ outer ++ back) := by
  obtain ⟨before, after, rfl⟩ := hhangs
  exact ⟨front ++ before, after ++ back, by simp⟩

theorem trans (hinner : Hangs width inner middle) (houter : Hangs outerWidth middle outer) :
    Hangs (width + outerWidth) inner outer := by
  obtain ⟨before, after, rfl⟩ := hinner
  obtain ⟨front, back, rfl⟩ := houter
  rw [← marked_spaces, ← marked_spaces, marked_append, marked_append]
  generalize marked (spaces outerWidth) _ after = rest
  -- What comes first may end a line, and then the text starts with an indentation of its own.
  cases lineStarts false before with
  | false =>
      refine ⟨front ++ marked (spaces outerWidth) false before, rest ++ back, ?_⟩
      rw [marked_spaces_marked, ← marked_spaces (width + outerWidth)]
      simp only [List.append_assoc]
  | true =>
      obtain ⟨opening, hopening⟩ := exists_marked_true (spaces outerWidth)
        (marked (spaces width) false inner)
      refine ⟨front ++ marked (spaces outerWidth) false before ++ opening, rest ++ back, ?_⟩
      rw [hopening, marked_spaces_marked, ← marked_spaces (width + outerWidth)]
      simp only [List.append_assoc]

/-- The newlines at the end of a text are not needed to find it. -/
theorem trimmed (hhangs : Hangs width inner outer) :
    Hangs width (inner.rdropWhile (· == Bytes.newline))
      (outer.rdropWhile (· == Bytes.newline)) := by
  obtain ⟨before, after, rfl⟩ := hhangs
  have hparts : inner.rdropWhile (· == Bytes.newline) ++ inner.rtakeWhile (· == Bytes.newline) =
      inner := List.rdropWhile_append_rtakeWhile
  have hsettled := List.rdropWhile_idempotent (· == Bytes.newline) inner
  generalize hkept : inner.rdropWhile (· == Bytes.newline) = kept at hparts hsettled ⊢
  rcases List.eq_nil_or_concat' kept with rfl | ⟨front, last, rfl⟩
  · have hnil : hungLines width [] = [] := rfl
    exact ⟨(before ++ hungLines width inner ++ after).rdropWhile (· == Bytes.newline), [],
      by simp [hnil]⟩
  · have hlast : ¬(last == Bytes.newline) = true := by
      simpa using List.rdropWhile_eq_self_iff.mp hsettled (by simp)
    obtain ⟨opening, hopening⟩ : ∃ opening, hungLines width (front ++ [last]) =
        opening ++ [last] := by
      rw [← marked_spaces, marked_append]
      exact ⟨_, (List.append_assoc _ _ _).symm⟩
    obtain ⟨rest, hrest⟩ : ∃ rest, hungLines width inner = opening ++ [last] ++ rest := by
      rw [← hopening, ← marked_spaces, ← marked_spaces, ← hparts, marked_append]
      exact ⟨_, rfl⟩
    have hfirst : (before ++ opening ++ [last]).rdropWhile (· == Bytes.newline) =
        before ++ opening ++ [last] := List.rdropWhile_concat_neg _ _ _ hlast
    refine ⟨before, (rest ++ after).rdropWhile (· == Bytes.newline), ?_⟩
    rw [hrest, hopening]
    simpa using rdropWhile_append_of_settled _ _ (rest ++ after) hfirst

end Hangs

/-- A line after the first stands behind a newline and its indentation. -/
theorem exists_hungLine (width : Nat) {data line : Bytes} (hmem : line ∈ data.lines.tail)
    (hline : line ≠ [Bytes.newline]) :
    ∃ before after, hungLines width data =
      before ++ Bytes.newline :: (List.replicate width Bytes.space ++ line) ++ after := by
  cases hlines : data.lines with
  | nil => simp [hlines] at hmem
  | cons first rest =>
      rw [hlines, List.tail_cons] at hmem
      obtain ⟨front, back, rfl⟩ := List.append_of_mem hmem
      have hhung : hungLine width line = List.replicate width Bytes.space ++ line := by
        rw [hungLine, if_neg hline]
      rw [hungLines, hlines]
      rcases List.eq_nil_or_concat' front with rfl | ⟨front, previous, rfl⟩
      · have hsplit : data.lines = [] ++ first :: line :: back := hlines
        obtain ⟨text, rfl⟩ := Bytes.exists_line_eq hsplit
        exact ⟨text, back.flatMap (hungLine width), by simp [hhung]⟩
      · have hsplit : data.lines = (first :: front) ++ previous :: line :: back := by simp [hlines]
        obtain ⟨text, rfl⟩ := Bytes.exists_line_eq hsplit
        obtain ⟨opening, hopening⟩ : ∃ opening, hungLine width (text ++ [Bytes.newline]) =
            opening ++ [Bytes.newline] := ⟨_, (List.append_assoc _ _ _).symm⟩
        refine ⟨first ++ front.flatMap (hungLine width) ++ opening,
          back.flatMap (hungLine width), ?_⟩
        simp [hhung, hopening]

theorem Hangs.exists_line {width : Nat} {inner outer line : Bytes}
    (hhangs : Hangs width inner outer) (hmem : line ∈ inner.lines.tail)
    (hline : line ≠ [Bytes.newline]) :
    ∃ before after, outer =
      before ++ Bytes.newline :: (List.replicate width Bytes.space ++ line) ++ after := by
  obtain ⟨before, after, rfl⟩ := hhangs
  obtain ⟨front, back, hhung⟩ := exists_hungLine width hmem hline
  refine ⟨before ++ front, back ++ after, ?_⟩
  rw [hhung]
  simp only [List.append_assoc]

end Output

end CanonicalMarkdown
