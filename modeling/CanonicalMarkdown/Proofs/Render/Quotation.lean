import CanonicalMarkdown.Proofs.Output.Composition
import CanonicalMarkdown.Proofs.Render.Outlook

namespace CanonicalMarkdown.Render

open Document Output

/-! A quotation marks every line, an empty one without the space. -/

def quotedLine (line : Bytes) : Bytes :=
  (if line = [Bytes.newline] then Bytes.ofText ">" else Bytes.ofText "> ") ++ line

def quotedLines (data : Bytes) : Bytes := data.lines.flatMap quotedLine

theorem emit_quoteMarker (data : Bytes) :
    (Layer.margin Block.quoteMarker true).emit data = quotedLines data := by
  have hbare : Block.quoteMarker.rdropWhile Bytes.isBlank = Bytes.ofText ">" := by decide
  have hline : Layer.margined Block.quoteMarker = quotedLine := by
    funext line
    rw [Layer.margined, hbare]
    rfl
  rw [Layer.emit, Layer.marked_eq_marginedFrom, Layer.marginedFrom_true, hline]
  rfl

theorem outcome_quoted (body : Layout) :
    (Block.quoted body).outcome =
      ⟨body.outcome.result,
        quotedLines (body.outcome.state.rdropWhile (· == Bytes.newline))⟩ := by
  rw [Block.quoted, Layout.outcome_through, Layout.outcome_through, Written.through,
    Written.through, emit_quoteMarker]
  rfl

namespace Renderer

variable (context : Context)

theorem outcome_entering_quote (place : Place) {element : Element}
    (hquote : element.node = .blockquote) {content : Written}
    (hcontent : ((standard context).content place element).outcome = content) :
    ((standard context).entering place element).outcome =
      ⟨content.result, (if place.isInList && place.hasPrevious then [Bytes.newline] else []) ++
        quotedLines (content.state.rdropWhile (· == Bytes.newline))⟩ := by
  obtain ⟨id, node, children⟩ := element
  obtain rfl : node = .blockquote := hquote
  have hentering : (standard context).entering place (.mk id .blockquote children) =
      .when (place.isInList && place.hasPrevious) .newline ++
        Block.quoted ((standard context).content place (.mk id .blockquote children)) := rfl
  rw [hentering, Layout.outcome_append, outcome_quoted, hcontent]
  unfold Layout.when
  split <;> rfl

theorem outcome_walk_document (place : Place) {element : Element}
    (hdocument : element.node = .document) :
    ((standard context).walk place element).outcome =
      ((standard context).content place element).outcome := by
  obtain ⟨id, node, children⟩ := element
  obtain rfl : node = .document := hdocument
  have hwalk : (standard context).walk place (.mk id .document children) =
      .visit id .enter ((standard context).content place (.mk id .document children) ++
        .visit id .leave .done) := rfl
  rw [hwalk, Layout.outcome_visit, Layout.outcome_append, Layout.outcome_visit,
    Layout.outcome_done, Written.followedBy_nothing]

/-- What the children of a quotation write they would write in a document. -/
theorem outcome_content_quote (place other : Place) {element twin : Element}
    (hquote : element.node = .blockquote) (hdocument : twin.node = .document)
    (hshapes : Element.shapeOfAll element.children = Element.shapeOfAll twin.children)
    (himage : ∀ child ∈ element.children, child.kind ≠ .image) (hroot : other.ancestors = []) :
    ((standard context).content place element).outcome =
      ((standard context).content other twin).outcome := by
  apply Layout.outcome_concat
  rw [parts, parts, hquote, hdocument, hroot]
  refine outcome_walkEach context (Alike.quote place.ancestors) [] element.children hshapes ?_
  -- Only an image asks whether the document itself is its parent.
  intro child hchild hkind
  exact absurd hkind (himage child hchild)

end Renderer

/-- The content of a quotation is laid out as that of a document. Entering the quotation writes what
the document with the same content would, without the newlines at its end and with every line
marked, and fails as that document does; only in a list a newline may come first. -/
theorem Formatter.quotation_as_document (options : Options) (formatCode : CodeFormatter)
    (source : Source) (tree : Tree) :
    let formatter : Formatter := { options, formatCode }
    ∀ id element, tree.element? id = some element → element.node = .blockquote →
      (∀ child ∈ element.children, child.kind ≠ .image) →
      ∀ top : Tree, top.root.shape = .mk .document (Element.shapeOfAll element.children) →
        let place := tree.place id
        let content := (formatter.body source top).run Buffer.empty
        let entered := ((formatter.renderer source).entering place element).run Buffer.empty
        entered.result = content.result ∧
          Sink.contents entered.state =
            (if place.isInList && place.hasPrevious then [Bytes.newline] else []) ++
              quotedLines ((Sink.contents content.state).rdropWhile (· == Bytes.newline)) := by
  intro formatter id element _ hquote himage top htop place content entered
  let context : Context := { source, options, formatCode }
  obtain ⟨hdocument, hshapes⟩ := Element.shape_eq_mk_iff.mp htop
  have hcontent : ((Renderer.standard context).content place element).outcome =
      (formatter.body source top).outcome := by
    rw [Renderer.outcome_content_quote context place Place.root hquote hdocument hshapes.symm himage
      rfl]
    exact (Renderer.outcome_walk_document context Place.root hdocument).symm
  have hentered := Renderer.outcome_entering_quote context place hquote hcontent
  have hrenderer : formatter.renderer source = Renderer.standard context := rfl
  refine ⟨?_, ?_⟩
  · simp only [entered, content, Layout.run_eq, hrenderer, hentered]
  · simp only [entered, content, Layout.contents_run, Layout.output, hrenderer, hentered]

/-- Two paragraphs in a quotation that comes second in a list item. -/
def quotedParagraphs : Tree :=
  (((((((Tree.new.appended Tree.rootId (.list false 1)).appended 1 .listItem).appended 2
    .textBlock).appended 2 .blockquote).appended 4 .paragraph).appended 5 (.string "a")).appended 4
    .paragraph).appended 7 (.string "b")

def plainParagraphs : Tree :=
  .ofShapes [.mk .paragraph [.leaf (.string "a")], .mk .paragraph [.leaf (.string "b")]]

theorem Formatter.quotedParagraphs_as_document :
    let formatter : Formatter := {}
    let content := (formatter.body #[] plainParagraphs).run Buffer.empty
    ∃ element, quotedParagraphs.element? 4 = some element ∧ element.node = .blockquote ∧
      let entered :=
        ((formatter.renderer #[]).entering (quotedParagraphs.place 4) element).run Buffer.empty
      entered.result = content.result ∧
        Sink.contents content.state = Bytes.ofText "a\n\nb\n\n" ∧
        Sink.contents entered.state = Bytes.ofText "\n> a\n>\n> b" := by
  let element : Element := .mk 4 .blockquote
    [.mk 5 .paragraph [.mk 6 (.string "a") []], .mk 7 .paragraph [.mk 8 (.string "b") []]]
  have helement : quotedParagraphs.element? 4 = some element := rfl
  have himage : ∀ child ∈ element.children, child.kind ≠ .image := by
    simp [element, Element.children, Element.kind, Element.node, Node.kind]
  have hcontent : Sink.contents ((({} : Formatter).body #[] plainParagraphs).run
      Buffer.empty).state = Bytes.ofText "a\n\nb\n\n" := by decide +kernel
  obtain ⟨hresult, hstate⟩ := Formatter.quotation_as_document {} .none #[] quotedParagraphs 4
    element helement rfl himage plainParagraphs (Tree.shape_root_ofShapes _)
  rw [hcontent] at hstate
  have hmarked : (if (quotedParagraphs.place 4).isInList && (quotedParagraphs.place 4).hasPrevious
      then [Bytes.newline] else []) ++ quotedLines
        ((Bytes.ofText "a\n\nb\n\n").rdropWhile (· == Bytes.newline)) =
      Bytes.ofText "\n> a\n>\n> b" := by decide +kernel
  rw [hmarked] at hstate
  exact ⟨element, helement, rfl, hresult, hcontent, hstate⟩

end CanonicalMarkdown.Render
