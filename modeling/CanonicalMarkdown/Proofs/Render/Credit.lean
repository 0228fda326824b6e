import CanonicalMarkdown.Proofs.Output.Entries
import CanonicalMarkdown.Proofs.Render.Failure
import CanonicalMarkdown.Proofs.Render.ListItem

namespace CanonicalMarkdown.Render

open Document Output

/-! Bytes with the nodes that they are written for. -/

structure Entry where
  byte : UInt8
  author : Option NodeId
  deriving DecidableEq, Repr

/-- A byte that no node has written. -/
def Entry.plain (byte : UInt8) : Entry := ⟨byte, none⟩

theorem Entry.spells (watched : UInt8) :
    Layer.Spells byte plain (fun entry => [entry.byte]) watched where
  spell_plain _ := rfl
  spell_eq _ := .inl rfl

def Phase.author (node : NodeId) : Phase → Option NodeId
  | .enter => some node
  | .leave => none

namespace Layout

/-- Who writes after a layout, if `author` wrote before it: the node entered last, unless one has
been left since. -/
def authorAfter (author : Option NodeId) : Layout → Option NodeId
  | .done => author
  | .fail _ => author
  | .visit node phase rest => rest.authorAfter (phase.author node)
  | .write _ rest => rest.authorAfter author
  | .within _ body rest => rest.authorAfter (body.authorAfter author)

/-- What a layout writes. The bytes that a layer adds are written for no node. -/
def credited (author : Option NodeId) : Layout → List Entry
  | .done => []
  | .fail _ => []
  | .visit node phase rest => rest.credited (phase.author node)
  | .write chunk rest => chunk.data.map (⟨·, author⟩) ++ rest.credited author
  | .within layer body rest =>
      layer.emitBy Entry.byte Entry.plain (body.credited author) ++
        rest.credited (body.authorAfter author)

theorem authorAfter_append {first : Layout} (hfirst : first.failure = none) (second : Layout)
    (author : Option NodeId) :
    (first ++ second).authorAfter author = second.authorAfter (first.authorAfter author) := by
  induction first generalizing author with
  | done => rfl
  | fail error => cases hfirst
  | visit node phase rest ih => exact ih hfirst _
  | write chunk rest ih => exact ih (by simpa using hfirst) author
  | within layer body rest _ ih =>
      rw [failure_within, Option.or_eq_none_iff] at hfirst
      exact ih hfirst.2 _

theorem credited_append {first : Layout} (hfirst : first.failure = none) (second : Layout)
    (author : Option NodeId) :
    (first ++ second).credited author =
      first.credited author ++ second.credited (first.authorAfter author) := by
  induction first generalizing author with
  | done => rfl
  | fail error => cases hfirst
  | visit node phase rest ih => exact ih hfirst _
  | write chunk rest ih =>
      rw [write_append, credited, ih (by simpa using hfirst), ← List.append_assoc]
      rfl
  | within layer body rest _ ih =>
      rw [failure_within, Option.or_eq_none_iff] at hfirst
      rw [within_append, credited, ih hfirst.2, ← List.append_assoc]
      rfl

/-- Without the nodes the entries are what is written. -/
theorem map_byte_credited {layout : Layout} (hnone : layout.failure = none)
    (author : Option NodeId) : (layout.credited author).map Entry.byte = layout.output := by
  induction layout generalizing author with
  | done => rfl
  | fail error => cases hnone
  | visit node phase rest ih => exact ih hnone _
  | write chunk rest ih =>
      have hrest := ih (by simpa using hnone) author
      rw [credited, List.map_append, hrest, List.map_map]
      simp [output, outcome, Written.all_followedBy, Function.comp_def]
  | within layer body rest ihBody ihRest =>
      rw [failure_within, Option.or_eq_none_iff] at hnone
      have hsplit : within layer body rest = through layer body ++ rest := rfl
      have hemit := Layer.emit_flatMap (Entry.spells layer.watched) (body.credited author)
      rw [← List.map_eq_flatMap, ← List.map_eq_flatMap, ihBody hnone.1] at hemit
      rw [hsplit, output_append (by simpa using hnone.1), output, outcome_through, Written.through,
        ← output, hemit, ← ihRest hnone.2 (body.authorAfter author), ← List.map_append]
      rfl

end Layout

end CanonicalMarkdown.Render
