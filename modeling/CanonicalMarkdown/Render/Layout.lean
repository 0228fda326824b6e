import CanonicalMarkdown.Document.Tree
import CanonicalMarkdown.Output.Layer
import CanonicalMarkdown.Render.Error

namespace CanonicalMarkdown.Render

open Document Output

/-- A node is rendered once before its children and once after them. -/
inductive Phase where
  | enter
  | leave
  deriving DecidableEq, Repr

/-! A layout is what rendering does to a writer, said without the writer. -/

inductive Layout where
  | done
  | fail (error : RenderError)
  /-- Notes whose rendering comes next; nothing is written for it. -/
  | visit (node : NodeId) (phase : Phase) (rest : Layout)
  | write (chunk : Chunk) (rest : Layout)
  /-- Puts a layer on the writer while `body` is laid out, and takes it off with what it holds. -/
  | within (layer : Layer) (body rest : Layout)

namespace Layout

def append : Layout → Layout → Layout
  | .done, after => after
  | .fail error, _ => .fail error
  | .visit node phase rest, after => .visit node phase (rest.append after)
  | .write chunk rest, after => .write chunk (rest.append after)
  | .within layer body rest, after => .within layer body (rest.append after)

instance : Append Layout := ⟨append⟩

def concat : List Layout → Layout
  | [] => .done
  | part :: rest => part ++ concat rest

def bytes (data : Bytes) : Layout := .write (.bytes data) .done

def text (text : String) : Layout := .write (.text text) .done

def byte (byte : UInt8) : Layout := .write (.byte byte) .done

def newline : Layout := byte Bytes.newline

def blankLine : Layout := bytes [Bytes.newline, Bytes.newline]

def through (layer : Layer) (body : Layout) : Layout := .within layer body .done

def when (condition : Bool) (layout : Layout) : Layout := if condition then layout else .done

/-! Equations of `append`, and its laws. -/

@[simp] theorem done_append (after : Layout) : Layout.done ++ after = after := rfl

@[simp] theorem fail_append (error : RenderError) (after : Layout) :
    Layout.fail error ++ after = .fail error := rfl

@[simp] theorem visit_append (node : NodeId) (phase : Phase) (rest after : Layout) :
    Layout.visit node phase rest ++ after = .visit node phase (rest ++ after) := rfl

@[simp] theorem write_append (chunk : Chunk) (rest after : Layout) :
    Layout.write chunk rest ++ after = .write chunk (rest ++ after) := rfl

@[simp] theorem within_append (layer : Layer) (body rest after : Layout) :
    Layout.within layer body rest ++ after = .within layer body (rest ++ after) := rfl

@[simp] theorem append_done (layout : Layout) : layout ++ Layout.done = layout := by
  induction layout with
  | done => rfl
  | fail _ => rfl
  | visit _ _ _ ih => simp [ih]
  | write _ _ ih => simp [ih]
  | within _ _ _ _ ih => simp [ih]

theorem append_assoc (first second third : Layout) :
    first ++ second ++ third = first ++ (second ++ third) := by
  induction first with
  | done => rfl
  | fail _ => rfl
  | visit _ _ _ ih => simp [ih]
  | write _ _ ih => simp [ih]
  | within _ _ _ _ ih => simp [ih]

/-! Running a layout on a writer. -/

/-- The layer of a narrowed writer is gone afterwards, whether its body failed or not. -/
def narrowed {σ : Type} (layer : Layer) (body : Action RenderError (Layered σ)) :
    Action RenderError σ := fun writer =>
  let outcome := body ⟨layer, writer⟩
  ⟨outcome.result, outcome.state.below⟩

def written {σ : Type} [Writer σ] (chunk : Chunk) : Action RenderError σ := fun writer =>
  let outcome := Writer.put chunk writer
  ⟨(outcome.result.mapError .write).map fun _ => (), outcome.state⟩

def run : Layout → {σ : Type} → [Writer σ] → Action RenderError σ
  | .done, _, _ => Action.skip
  | .fail error, _, _ => Action.fail error
  | .visit _ _ rest, _, _ => rest.run
  | .write chunk rest, _, _ => (written chunk).andThen rest.run
  | .within layer body rest, _, _ => (narrowed layer body.run).andThen rest.run

end Layout

end CanonicalMarkdown.Render
