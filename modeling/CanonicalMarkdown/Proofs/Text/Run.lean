import CanonicalMarkdown.Text.Blank
import Mathlib

namespace CanonicalMarkdown.Text

/-- Of the leading parts of a text whose characters all have the property this is the longest. -/
structure LeadingRun (p : Char → Bool) (text run rest : List Char) : Prop where
  split : text = run ++ rest
  all : ∀ c ∈ run, p c = true
  stops : ∀ next ∈ rest.head?, p next = false

section

variable {p : Char → Bool} {text run rest : List Char}

theorem leadingRun_takeWhile (p : Char → Bool) (text : List Char) :
    LeadingRun p text (text.takeWhile p) (text.dropWhile p) where
  split := List.takeWhile_append_dropWhile.symm
  all := List.all_eq_true.mp List.all_takeWhile
  stops next hnext := by
    have hkept := List.head?_dropWhile_not p text
    simpa [Option.mem_def.mp hnext] using hkept

theorem LeadingRun.takeWhile_eq (hrun : LeadingRun p text run rest) : text.takeWhile p = run := by
  obtain ⟨rfl, hall, hstops⟩ := hrun
  rw [List.takeWhile_append_of_pos hall]
  cases rest with
  | nil => simp
  | cons next rest => simp [hstops next rfl]

theorem LeadingRun.dropWhile_eq (hrun : LeadingRun p text run rest) : text.dropWhile p = rest := by
  have hsplit : text.takeWhile p ++ text.dropWhile p = text := List.takeWhile_append_dropWhile
  rw [hrun.takeWhile_eq] at hsplit
  exact List.append_cancel_left (hsplit.trans hrun.split)

end

/-! The first word of a text. -/

/-- After white space, if there is any, a word goes as far as it can. -/
def FirstWord (text word : List Char) : Prop :=
  ∃ before rest after, LeadingRun isBlank text before rest ∧
    LeadingRun (fun c => !isBlank c) rest word after ∧ word ≠ []

theorem firstWord?_eq_some_iff {text word : String} :
    firstWord? text = some word ↔ FirstWord text.toList word.toList := by
  rw [firstWord?]
  constructor
  · intro hword
    split at hword
    · cases hword
    · next hnonempty =>
        cases hword
        rw [String.toList_ofList]
        exact ⟨_, _, _, leadingRun_takeWhile _ _, leadingRun_takeWhile _ _,
          by simpa using hnonempty⟩
  · rintro ⟨before, rest, after, hbefore, hword, hnonempty⟩
    rw [hbefore.dropWhile_eq, hword.takeWhile_eq, if_neg (by simpa using hnonempty),
      String.ofList_toList]

theorem firstWord?_eq_none_iff {text : String} :
    firstWord? text = none ↔ isBlankText text = true := by
  have hstops := (leadingRun_takeWhile isBlank text.toList).stops
  rw [firstWord?, isBlankText, List.all_eq_true, ← List.dropWhile_eq_nil_iff]
  cases hrest : text.toList.dropWhile isBlank with
  | nil => simp
  | cons next rest =>
      have hnext : isBlank next = false := hstops next (by rw [hrest]; rfl)
      simp [hnext]

end CanonicalMarkdown.Text
