import CanonicalMarkdown.Proofs.Render.Independence
import Mathlib

namespace CanonicalMarkdown.Render

open Document Output

/-! How documents end. -/

/-- Whether there is front matter worth writing. -/
def FrontMatter.isPresent (metadata : Option Yaml.Value) : Bool := metadata.any (!isVacant ·)

/-- Front matter that is written ends with its delimiter and a blank line. -/
theorem FrontMatter.encoded_eq_ok {metadata : Option Yaml.Value} {block : Bytes}
    (hblock : encoded metadata = .ok block) :
    if isPresent metadata then
      ∃ text, block = text ++ [Bytes.newline, Bytes.newline] ∧ text.getLast? ≠ some Bytes.newline
    else block = [] := by
  cases metadata with
  | none =>
      cases hblock
      rfl
  | some value =>
      cases hvacant : isVacant value with
      | true =>
          simp only [encoded, hvacant, if_pos] at hblock
          cases hblock
          simp [isPresent, hvacant]
      | false =>
          simp only [encoded, hvacant, Bool.false_eq_true, if_neg, not_false_eq_true] at hblock
          cases hprint : value.print with
          | error cause =>
              rw [hprint] at hblock
              cases hblock
          | ok yaml =>
              rw [hprint] at hblock
              cases hblock
              have hdelimiter : Bytes.ofText delimiter = [45, 45, 45, Bytes.newline] := by decide
              simp only [isPresent, Option.any_some, hvacant, Bool.not_false, if_pos]
              refine ⟨Bytes.ofText delimiter ++ Bytes.ofText yaml ++
                (if (Bytes.ofText yaml).endsLine then [] else [Bytes.newline]) ++ [45, 45, 45],
                ?_, ?_⟩
              · rw [enclosed, hdelimiter]
                simp
              · simp [Bytes.newline]

theorem getLast?_rdropWhile_ne (byte : UInt8) (data : Bytes) :
    (data.rdropWhile (· == byte)).getLast? ≠ some byte := by
  by_cases hempty : data.rdropWhile (· == byte) = []
  · rw [hempty]
    simp
  · rw [List.getLast?_eq_some_getLast hempty, ne_eq, Option.some.injEq]
    simpa using List.rdropWhile_last_not (· == byte) data hempty

/-- A document ends with one newline, after text that does not end with one. The exception is front
matter above a body that writes nothing but newlines: its blank line stays, and the newline of the
document comes on top of that. -/
theorem Formatter.newlines_at_end {formatter : Formatter} {metadata : Option Yaml.Value}
    {source : Source} {tree : Tree} {output : Bytes}
    (hrender : formatter.render metadata source tree = .ok output) :
    let isBlank := (formatter.body source tree).output.all (· == Bytes.newline)
    let count := if FrontMatter.isPresent metadata && isBlank then 3 else 1
    ∃ text, output = text ++ List.replicate count Bytes.newline ∧
      text.getLast? ≠ some Bytes.newline := by
  intro isBlank count
  rw [Formatter.render_eq] at hrender
  split at hrender
  · cases hrender
  · cases hrender
  · next block _ body hblock hbody =>
      cases hrender
      have hblank : isBlank = body.all (· == Bytes.newline) := by
        simp only [isBlank, Layout.output, hbody]
      have hended := FrontMatter.encoded_eq_ok hblock
      have hbare := getLast?_rdropWhile_ne Bytes.newline body
      cases hpresent : FrontMatter.isPresent metadata with
      | false =>
          rw [hpresent, if_neg Bool.false_ne_true] at hended
          refine ⟨body.rdropWhile (· == Bytes.newline), ?_, hbare⟩
          simp [count, hpresent, hended]
      | true =>
          rw [hpresent, if_pos rfl] at hended
          by_cases hempty : body.rdropWhile (· == Bytes.newline) = []
          · obtain ⟨text, rfl, htext⟩ := hended
            have hall : isBlank = true := by
              rw [hblank, List.all_eq_true]
              exact List.rdropWhile_eq_nil_iff.mp hempty
            refine ⟨text, ?_, htext⟩
            simp [count, hpresent, hall, hempty, List.replicate_succ]
          · have hall : isBlank = false := by
              rw [hblank, List.all_eq_false]
              rw [List.rdropWhile_eq_nil_iff] at hempty
              push Not at hempty
              exact hempty
            refine ⟨block ++ body.rdropWhile (· == Bytes.newline), ?_, ?_⟩
            · simp [count, hall]
            · rwa [List.getLast?_append_of_ne_nil _ hempty]

/-- The front matter of a document that has nothing else. -/
def onlyFrontMatter : Yaml.Value := .mapping [(.string "a", .string "b")]

theorem render_onlyFrontMatter :
    ({} : Formatter).render (some onlyFrontMatter) #[] Tree.new =
      .ok (Bytes.ofText "---\na: b\n---\n\n\n") := by
  have hprint : onlyFrontMatter.print = .ok "a: b\n" := by decide +kernel
  have hblock : FrontMatter.encoded (some onlyFrontMatter) =
      .ok (FrontMatter.enclosed (Bytes.ofText "a: b\n")) := by
    simp only [FrontMatter.encoded, hprint]
    rfl
  rw [Formatter.render_eq, hblock]
  cbv

theorem Formatter.onlyFrontMatter_ends :
    ({} : Formatter).render (some onlyFrontMatter) #[] Tree.new =
        .ok (Bytes.ofText "---\na: b\n---\n\n\n") ∧
      ∃ text, Bytes.ofText "---\na: b\n---\n\n\n" = text ++ List.replicate 3 Bytes.newline ∧
        text.getLast? ≠ some Bytes.newline := by
  have hblank : (({} : Formatter).body #[] Tree.new).output.all (· == Bytes.newline) = true := by
    cbv
  have hpresent : FrontMatter.isPresent (some onlyFrontMatter) = true := rfl
  obtain ⟨text, houtput, htext⟩ := Formatter.newlines_at_end render_onlyFrontMatter
  rw [hblank, hpresent] at houtput
  exact ⟨render_onlyFrontMatter, text, houtput, htext⟩

/-- So not every document ends with just one newline. -/
theorem Formatter.onlyFrontMatter_ends_blank :
    ¬∀ (formatter : Formatter) (metadata : Option Yaml.Value) (source : Source) (tree : Tree)
      (output : Bytes), formatter.render metadata source tree = .ok output →
        ∃ text, output = text ++ [Bytes.newline] ∧ text.getLast? ≠ some Bytes.newline := by
  intro hends
  obtain ⟨text, houtput, htext⟩ := hends {} (some onlyFrontMatter) #[] Tree.new _
    render_onlyFrontMatter
  have hbefore : (Bytes.ofText "---\na: b\n---\n\n\n").dropLast = text := by
    rw [houtput, List.dropLast_concat]
  rw [← hbefore] at htext
  exact htext (by decide)

end CanonicalMarkdown.Render
