import CanonicalMarkdown.Proofs.Output.Layer
import CanonicalMarkdown.Render.Layout

namespace CanonicalMarkdown.Render

open Document Output

/-- The bytes that were written, and the failure that ended the writing if there was one. -/
abbrev Written := Outcome RenderError Bytes Unit

namespace Written

def all (data : Bytes) : Written := ⟨.ok (), data⟩

/-- What comes second is left out when the first fails. -/
def followedBy : Written → Written → Written
  | ⟨.ok _, data⟩, second => ⟨second.result, data ++ second.state⟩
  | ⟨.error error, data⟩, _ => ⟨.error error, data⟩

/-- What a layer that is dropped afterwards makes of it. -/
def through (layer : Layer) (written : Written) : Written :=
  ⟨written.result, layer.emit written.state⟩

theorem all_followedBy (data : Bytes) (second : Written) :
    (all data).followedBy second = ⟨second.result, data ++ second.state⟩ := rfl

@[simp] theorem all_followedBy_all (first second : Bytes) :
    (all first).followedBy (all second) = all (first ++ second) := rfl

@[simp] theorem followedBy_nothing (written : Written) : written.followedBy (all []) = written := by
  obtain ⟨result, data⟩ := written
  cases result with
  | error error => rfl
  | ok _ => simp [followedBy, all]

theorem followedBy_assoc (first second third : Written) :
    (first.followedBy second).followedBy third =
      first.followedBy (second.followedBy third) := by
  obtain ⟨result, data⟩ := first
  cases result with
  | error error => rfl
  | ok _ =>
      obtain ⟨result, other⟩ := second
      cases result with
      | error error => rfl
      | ok _ => simp [followedBy]

end Written

namespace Layout

/-- What a layout writes, said without a writer. -/
def outcome : Layout → Written
  | .done => .all []
  | .fail error => ⟨.error error, []⟩
  | .visit _ _ rest => rest.outcome
  | .write chunk rest => (Written.all chunk.data).followedBy rest.outcome
  | .within layer body rest => (body.outcome.through layer).followedBy rest.outcome

/-- The bytes a layout writes, up to its failure if it fails. -/
def output (layout : Layout) : Bytes := layout.outcome.state

@[simp] theorem outcome_done : done.outcome = .all [] := rfl

@[simp] theorem outcome_visit (node : NodeId) (phase : Phase) (rest : Layout) :
    (visit node phase rest).outcome = rest.outcome := rfl

@[simp] theorem outcome_bytes (data : Bytes) : (bytes data).outcome = .all data := by
  simp [bytes, outcome, Chunk.data]

@[simp] theorem outcome_text (content : String) :
    (text content).outcome = .all (Bytes.ofText content) := by
  simp [text, outcome, Chunk.data]

@[simp] theorem outcome_newline : newline.outcome = .all [Bytes.newline] := rfl

@[simp] theorem outcome_through (layer : Layer) (body : Layout) :
    (through layer body).outcome = body.outcome.through layer :=
  Written.followedBy_nothing _

@[simp] theorem outcome_append (first second : Layout) :
    (first ++ second).outcome = first.outcome.followedBy second.outcome := by
  induction first with
  | done => rfl
  | fail error => rfl
  | visit node phase rest ih => exact ih
  | write chunk rest ih =>
      rw [write_append]
      simp only [outcome, ih, Written.followedBy_assoc]
  | within layer body rest _ ih =>
      rw [within_append]
      simp only [outcome, ih, Written.followedBy_assoc]

theorem written_eq {σ : Type} [Writer σ] [Steady σ] (chunk : Chunk) (state : σ) :
    written chunk state = ⟨.ok (), Writer.fed state chunk.data⟩ := by
  simp [written, Steady.put_eq, Except.mapError, Except.map]

/-- A steady writer is left as if all that the layout writes had come at once. -/
theorem run_eq (layout : Layout) {σ : Type} [Writer σ] [Steady σ] (state : σ) :
    layout.run state = ⟨layout.outcome.result, Writer.fed state layout.output⟩ := by
  induction layout generalizing σ with
  | done => simp [run, Action.skip, output, outcome, Written.all, Steady.fed_nil]
  | fail error => simp [run, Action.fail, output, outcome, Steady.fed_nil]
  | visit node phase rest ih => exact ih state
  | write chunk rest ih =>
      simp only [run, Action.andThen, written_eq, ih, output, outcome, Written.all_followedBy,
        Steady.fed_append]
  | within layer body rest ihBody ihRest =>
      -- The body runs on the layered writer, which is steady as well.
      have hnarrowed : narrowed layer body.run state =
          ⟨body.outcome.result, Writer.fed state (layer.emit body.output)⟩ := by
        simp only [narrowed]
        rw [ihBody, Layered.fed_eq]
      simp only [run, Action.andThen, hnarrowed]
      cases hbody : body.outcome with
      | mk result inner =>
          cases result with
          | ok _ =>
              simp only [output, outcome, hbody, ihRest, Written.through, Written.followedBy,
                Steady.fed_append]
          | error error =>
              simp only [output, outcome, hbody, Written.through, Written.followedBy]

theorem contents_run (layout : Layout) :
    Sink.contents (layout.run Buffer.empty).state = layout.output := by
  rw [run_eq, Buffer.contents_fed_empty]

end Layout

end CanonicalMarkdown.Render
