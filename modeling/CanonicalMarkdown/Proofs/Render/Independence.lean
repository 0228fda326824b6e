import CanonicalMarkdown.Proofs.Render.Layout
import CanonicalMarkdown.Render.Formatter

namespace CanonicalMarkdown.Render

open Document Output

/-! Front matter as bytes. -/

namespace FrontMatter

def enclosed (yaml : Bytes) : Bytes :=
  Bytes.ofText delimiter ++ yaml ++ (if yaml.endsLine then [] else [Bytes.newline]) ++
    Bytes.ofText delimiter ++ [Bytes.newline]

/-- The block that stands before the document, empty when there is nothing worth writing. -/
def encoded : Option Yaml.Value → Except RenderError Bytes
  | none => .ok []
  | some value =>
      if isVacant value then .ok []
      else match value.print with
        | .ok yaml => .ok (enclosed (Bytes.ofText yaml))
        | .error cause => .error (.encoding value.kindName cause)

theorem outcome_block (yaml : String) :
    (block yaml).outcome = .all (enclosed (Bytes.ofText yaml)) := by
  cases hends : (Bytes.ofText yaml).endsLine <;> simp [block, enclosed, Layout.when, hends]

theorem outcome_layout (metadata : Option Yaml.Value) :
    (layout metadata).outcome =
      match encoded metadata with
      | .ok block => .all block
      | .error error => ⟨.error error, []⟩ := by
  cases metadata with
  | none => rfl
  | some value =>
      by_cases hvacant : isVacant value = true
      · simp [layout, encoded, hvacant]
      · cases hprint : value.print with
        | ok yaml => simp [layout, encoded, hvacant, hprint, outcome_block]
        | error cause => simp [layout, encoded, hvacant, hprint, Layout.outcome]

/-- What can be encoded is left out or laid out as a block. -/
theorem layout_eq {metadata : Option Yaml.Value} {block : Bytes}
    (hencoded : encoded metadata = .ok block) :
    layout metadata = .done ∨
      ∃ yaml, layout metadata = FrontMatter.block yaml ∧ block = enclosed (Bytes.ofText yaml) := by
  cases metadata with
  | none => exact .inl rfl
  | some value =>
      by_cases hvacant : isVacant value = true
      · exact .inl (by simp [layout, hvacant])
      · cases hprint : value.print with
        | error cause => simp [encoded, hvacant, hprint] at hencoded
        | ok yaml =>
            have hblock : enclosed (Bytes.ofText yaml) = block := by
              simpa [encoded, hvacant, hprint] using hencoded
            exact .inr ⟨yaml, by simp [layout, hvacant, hprint], hblock.symm⟩

end FrontMatter

namespace Formatter

variable (formatter : Formatter) (source : Source) (tree : Tree)

theorem render_eq_outcome (metadata : Option Yaml.Value) :
    formatter.render metadata source tree =
      match (formatter.document metadata source tree).outcome with
      | ⟨.ok _, output⟩ => .ok output
      | ⟨.error error, _⟩ => .error error.inDocument := by
  simp only [render, Layout.run_eq, Buffer.contents_fed_empty, Outcome.failure, Layout.output]
  cases (formatter.document metadata source tree).outcome with
  | mk result output => cases result <;> rfl

/-- A document is its front matter, then the body without the newlines at its end, then one
newline; the body does not depend on the front matter. -/
theorem render_eq (metadata : Option Yaml.Value) :
    formatter.render metadata source tree =
      match FrontMatter.encoded metadata, (formatter.body source tree).outcome with
      | .error error, _ => .error error.inDocument
      | .ok _, ⟨.error error, _⟩ => .error error.inDocument
      | .ok block, ⟨.ok _, body⟩ =>
          .ok (block ++ body.rdropWhile (· == Bytes.newline) ++ [Bytes.newline]) := by
  have hdocument : (formatter.document metadata source tree).outcome =
      ((FrontMatter.layout metadata).outcome.followedBy
        ((formatter.body source tree).outcome.through (.trim Bytes.newline 0))).followedBy
          (.all [Bytes.newline]) := by
    simp [document]
  rw [render_eq_outcome, hdocument, FrontMatter.outcome_layout]
  cases FrontMatter.encoded metadata with
  | error error => rfl
  | ok block =>
      cases (formatter.body source tree).outcome with
      | mk result body => cases result <;> rfl

end Formatter

/-- Walking a node leaves any stack of layers as one write of what the walk puts into an empty
buffer does, with the same result; so a document is its front matter block, the trimmed body and a
newline, and front matter only adds its block in front. -/
theorem Formatter.walk_independent_of_writer (formatter : Formatter) (source : Source)
    (tree : Tree) :
    (∀ id element, tree.element? id = some element →
      let walk := (formatter.renderer source).walk (tree.place id) element
      let plain := walk.run Buffer.empty
      ∀ depth (stack : Stack Buffer depth),
        walk.run stack =
          ⟨plain.result, (Writer.write (Sink.contents plain.state) stack).state⟩) ∧
    (∀ metadata output, formatter.render metadata source tree = .ok output →
      let plain := (formatter.body source tree).run Buffer.empty
      ∃ block, FrontMatter.encoded metadata = .ok block ∧
        output = block ++ (Sink.contents plain.state).rdropWhile (· == Bytes.newline) ++
          [Bytes.newline]) ∧
    ∀ value, formatter.render (some value) source tree =
      match FrontMatter.encoded (some value) with
      | .error error => .error error.inDocument
      | .ok block => (formatter.render none source tree).map (block ++ ·) := by
  refine ⟨?_, ?_, ?_⟩
  · intro id element _ walk plain depth stack
    simp only [plain, Layout.contents_run]
    rw [Layout.run_eq, Layout.run_eq]
    rfl
  · intro metadata output hrender plain
    simp only [plain, Layout.contents_run, Layout.output]
    rw [Formatter.render_eq] at hrender
    cases hblock : FrontMatter.encoded metadata with
    | error error => simp [hblock] at hrender
    | ok block =>
        cases hbody : (formatter.body source tree).outcome with
        | mk result body =>
            cases result with
            | error error => simp [hblock, hbody] at hrender
            | ok _ =>
                rw [hblock, hbody] at hrender
                exact ⟨block, rfl, (Except.ok.inj hrender).symm⟩
  · intro value
    rw [Formatter.render_eq, Formatter.render_eq]
    cases FrontMatter.encoded (some value) with
    | error error => rfl
    | ok block =>
        cases (formatter.body source tree).outcome with
        | mk result body =>
            cases result with
            | error error => rfl
            | ok _ => simp [FrontMatter.encoded, Except.map]

/-- The tree of a document with one paragraph of one byte. -/
def oneParagraph : Tree := ⟨#[
  { node := .document, first := some 1, last := some 1 },
  { node := .paragraph, parent := some 0, first := some 2, last := some 2 },
  { node := .plainText ⟨0, 1⟩, parent := some 1 }]⟩

def oneField : Yaml.Value := .mapping [(.string "a", .integer 1)]

def oneFieldBlock : Bytes := Bytes.ofText "---\na: 1\n---\n\n"

theorem FrontMatter.encoded_oneField : encoded (some oneField) = .ok oneFieldBlock := by
  have hprint : oneField.print = .ok "a: 1\n" := by decide +kernel
  simp only [encoded, hprint]
  rfl

theorem Formatter.walk_paragraph_on_margin :
    let formatter : Formatter := {}
    let stack : Stack Buffer 1 := (⟨.margin [62, 32] true, Buffer.empty⟩ : Layered Buffer)
    (∃ element, oneParagraph.element? 1 = some element ∧
      (((formatter.renderer #[97]).walk (oneParagraph.place 1) element).run stack).state =
        (Writer.write [97, 10, 10] stack).state) ∧
    formatter.render (some oneField) #[97] oneParagraph = .ok (oneFieldBlock ++ [97, 10]) ∧
    ∃ block, FrontMatter.encoded (some oneField) = .ok block ∧
      oneFieldBlock ++ [97, 10] = block ++ [97] ++ [Bytes.newline] := by
  intro formatter stack
  obtain ⟨hwalk, hrender, hfield⟩ :=
    Formatter.walk_independent_of_writer formatter #[97] oneParagraph
  have helement : oneParagraph.element? 1 =
      some (.mk 1 .paragraph [.mk 2 (.plainText ⟨0, 1⟩) []]) := rfl
  have hplain : Sink.contents (((formatter.renderer #[97]).walk (oneParagraph.place 1)
      (.mk 1 .paragraph [.mk 2 (.plainText ⟨0, 1⟩) []])).run Buffer.empty).state =
        [97, 10, 10] := by cbv
  have hbare : formatter.render none #[97] oneParagraph = .ok [97, 10] := by cbv
  have hbody : (Sink.contents
      ((formatter.body #[97] oneParagraph).run Buffer.empty).state).rdropWhile
        (· == Bytes.newline) = [97] := by cbv
  have hok : formatter.render (some oneField) #[97] oneParagraph =
      .ok (oneFieldBlock ++ [97, 10]) := by
    rw [hfield, FrontMatter.encoded_oneField, hbare]
    rfl
  refine ⟨⟨_, helement, ?_⟩, hok, ?_⟩
  · have hstack := congrArg Outcome.state (hwalk 1 _ helement 1 stack)
    rwa [hplain] at hstack
  · obtain ⟨block, hblock, houtput⟩ := hrender _ _ hok
    rw [hbody] at houtput
    exact ⟨block, hblock, houtput⟩

end CanonicalMarkdown.Render
