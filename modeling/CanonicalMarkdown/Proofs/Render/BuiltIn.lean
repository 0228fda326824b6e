import CanonicalMarkdown.Proofs.Render.Layout
import CanonicalMarkdown.Render.Walk

namespace CanonicalMarkdown

open Document Output

/-- Nodes that stand for themselves: what is below them is not rendered. -/
def Document.Kind.isOpaque : Kind → Bool
  | .autoLink | .codeSpan | .image | .rawHtml => true
  | _ => false

namespace Render

namespace Layout

/-! Layouts that do nothing but write. -/

def IsPlain : Layout → Prop
  | .done => True
  | .fail _ => False
  | .visit _ _ _ => False
  | .write _ rest => rest.IsPlain
  | .within _ body rest => body.IsPlain ∧ rest.IsPlain

@[simp] theorem isPlain_done : done.IsPlain := trivial

@[simp] theorem isPlain_bytes (data : Bytes) : (bytes data).IsPlain := trivial

@[simp] theorem isPlain_text (content : String) : (text content).IsPlain := trivial

@[simp] theorem isPlain_newline : newline.IsPlain := trivial

@[simp] theorem isPlain_blankLine : blankLine.IsPlain := trivial

@[simp] theorem isPlain_append (first second : Layout) :
    (first ++ second).IsPlain ↔ first.IsPlain ∧ second.IsPlain := by
  induction first with
  | done => simp
  | fail error => simp [IsPlain]
  | visit node phase rest _ => simp [IsPlain]
  | write chunk rest ih => simpa [IsPlain] using ih
  | within layer body rest _ ih => simp [IsPlain, ih, and_assoc]

@[simp] theorem isPlain_when (condition : Bool) (layout : Layout) :
    (when condition layout).IsPlain ↔ (condition = true → layout.IsPlain) := by
  cases condition <;> simp [when]

@[simp] theorem isPlain_through (layer : Layer) (body : Layout) :
    (through layer body).IsPlain ↔ body.IsPlain := by
  simp [through, IsPlain]

theorem isPlain_concat {parts : List Layout} (hparts : ∀ part ∈ parts, part.IsPlain) :
    (concat parts).IsPlain := by
  induction parts with
  | nil => trivial
  | cons part rest ih =>
      rw [concat, isPlain_append]
      exact ⟨hparts part (by simp), ih fun part hpart => hparts part (by simp [hpart])⟩

theorem isPlain_concat_bytes {α : Type} (pieces : List α) (data : α → Bytes) :
    (concat (pieces.map fun piece => bytes (data piece))).IsPlain := by
  apply isPlain_concat
  intro part hpart
  obtain ⟨piece, -, rfl⟩ := List.mem_map.mp hpart
  exact isPlain_bytes _

@[simp] theorem isPlain_code (context : Context) (language : String) (lines : List Segment) :
    (context.code language lines).IsPlain := by
  simp [Context.code]

@[simp] theorem isPlain_target (destination label : String) :
    (Inline.target destination label).IsPlain := by
  have htitle : (Inline.title label).IsPlain := by
    unfold Inline.title
    split <;> trivial
  simp [Inline.target, htitle]

@[simp] theorem isPlain_lineBreak (options : Options) (place : Place) (soft hard : Bool) :
    (Inline.lineBreak options place soft hard).IsPlain := by
  unfold Inline.lineBreak
  split_ifs <;> trivial

theorem isPlain_indentedCode (code : Bytes) : (Block.indentedCode code).IsPlain := by
  rw [Block.indentedCode, isPlain_append, isPlain_through]
  exact ⟨isPlain_newline, isPlain_concat_bytes _ id⟩

/-! What a function puts around the layouts of the children: writing before them, a newline after
them, and layers on the writer while they are laid out. -/

inductive Encloses : (Layout → Layout) → Prop
  | itself : Encloses fun body => body
  | after {wrap : Layout → Layout} (before : Layout) :
      before.IsPlain → Encloses wrap → Encloses fun body => before ++ wrap body
  | newline {wrap : Layout → Layout} : Encloses wrap → Encloses fun body => wrap body ++ .newline
  | through {wrap : Layout → Layout} (layer : Layer) :
      Encloses wrap → Encloses fun body => .through layer (wrap body)

theorem Encloses.opening {before : Layout} (hbefore : before.IsPlain) :
    Encloses fun body => before ++ body :=
  .after before hbefore .itself

/-- Laid out through several layers, the outermost first. -/
def under : List Layer → Layout → Layout
  | [], body => body
  | layer :: rest, body => .through layer (under rest body)

theorem Encloses.under {wrap : Layout → Layout} (layers : List Layer) (hwrap : Encloses wrap) :
    Encloses fun body => Layout.under layers (wrap body) := by
  induction layers with
  | nil => exact hwrap
  | cons layer rest ih => exact .through layer ih

end Layout

namespace Renderer

/-- The renderer that no function has been replaced in. -/
def standard (context : Context) : Renderer := { context }

variable (context : Context) (place : Place)

theorem around_of_descend {renderer : Renderer} {element : Element} {parts : List Layout}
    {opening : Layout} (henter : renderer.render place element .enter parts = .descend opening) :
    renderer.around place element parts =
      .visit element.id .enter (opening ++ .concat parts ++
        .visit element.id .leave (renderer.render place element .leave parts).layout) := by
  simp [around, henter, Rendering.descend, Layout.when]

theorem around_of_skipChildren {renderer : Renderer} {element : Element} {parts : List Layout}
    {opening : Layout}
    (henter : renderer.render place element .enter parts = .skipChildren opening) :
    renderer.around place element parts =
      .visit element.id .enter (opening ++
        .visit element.id .leave (renderer.render place element .leave parts).layout) := by
  have hstatus : (Status.skipChildren == Status.descend) = false := rfl
  simp [around, henter, Rendering.skipChildren, Layout.when, hstatus]

theorem render_standard (element : Element) (phase : Phase) (parts : List Layout) :
    (standard context).render place element phase parts =
      builtIn element.kind {
        context, place, element, phase, parts
        inEffect := (standard context).call place element phase parts 19 } := rfl

theorem isPlain_render_leave (element : Element) (parts : List Layout)
    (hkind : element.kind ≠ .emphasis) :
    ((standard context).render place element .leave parts).layout.IsPlain := by
  obtain ⟨id, node, children⟩ := element
  rw [render_standard]
  cases node with
  | emphasis level => exact absurd rfl hkind
  | paragraph =>
      change (if !place.isInList then Rendering.descend .blankLine
        else .descend (.when place.hasNext .newline)).layout.IsPlain
      split <;> simp [Rendering.descend]
  | list ordered start =>
      change (if place.parent?.any (·.kind == .listItem) then
        Rendering.descend (.when place.hasNext .newline)
        else .descend .blankLine).layout.IsPlain
      split <;> simp [Rendering.descend]
  | codeBlock lines =>
      simp only [builtIn, Element.kind, Element.node, Node.kind, Block.codeBlock]
      split <;> simp [Block.fencedCodeBlock, Rendering.descend, Rendering.nothing]
  | htmlBlock lines closure =>
      cases closure <;>
        simp [builtIn, Element.kind, Element.node, Node.kind, Block.htmlBlock, Visit.node,
          Rendering.descend]
  | heading | textBlock | blockquote | listItem | fencedCodeBlock | thematicBreak | autoLink
  | codeSpan | link | string =>
      simp [builtIn, Element.kind, Element.node, Node.kind, Visit.node, Rendering.descend,
        Block.heading, Block.textBlock, Block.blockquote, Block.listItem, Block.fencedCodeBlock,
        Block.thematicBreak, Inline.autoLink, Inline.codeSpan, Inline.link, Inline.string]
  | document | strikethrough | image | rawHtml | text => trivial

/-! Every node but an emphasis sets its children between writing of its own, or stands for itself
without them. -/

/-- What is around the children: writing before them, outside and inside of the layers that they
are laid out through, a newline at their end, and what follows once the node is left. -/
structure Setting where
  before : Layout := .done
  /-- From the outermost. -/
  layers : List Layer := []
  opening : Layout := .done
  isEnded : Bool := false
  closing : Layout

def Setting.wrap (setting : Setting) (body : Layout) : Layout :=
  setting.before ++ .under setting.layers (setting.opening ++ body) ++
    .when setting.isEnded .newline

def setting (element : Element) : Setting :=
  let closing := ((standard context).render place element .leave []).layout
  let apart := place.isInList && place.hasPrevious
  match element.kind with
  | .paragraph => { before := .when apart .newline, isEnded := apart, closing }
  | .blockquote =>
      { before := .when apart .newline
        layers := [.margin Block.quoteMarker true, .trim Bytes.newline 0]
        closing }
  | .listItem =>
      { layers := [.indent (Block.itemMarker place).length]
        opening := .bytes (Block.itemMarker place)
        closing }
  | _ => { before := ((standard context).render place element .enter []).layout, closing }

theorem render_leave_eq (element : Element) (parts : List Layout)
    (hkind : element.kind ≠ .emphasis) :
    ((standard context).render place element .leave parts).layout =
      (setting context place element).closing := by
  obtain ⟨id, node, children⟩ := element
  cases node with
  | emphasis level => exact absurd rfl hkind
  | _ => rfl

section

variable {context place} {element : Element} {parts : List Layout} {opening : Layout}
  (hkind : element.kind ≠ .emphasis)
include hkind

theorem around_eq_of_descend
    (henter : (standard context).render place element .enter parts = .descend opening)
    (hwrap : opening ++ .concat parts = (setting context place element).wrap (.concat parts)) :
    (standard context).around place element parts =
      .visit element.id .enter ((setting context place element).wrap (.concat parts) ++
        .visit element.id .leave (setting context place element).closing) := by
  rw [around_of_descend place henter, hwrap, render_leave_eq context place element parts hkind]

theorem around_eq_of_skipChildren {body : Layout}
    (henter : (standard context).render place element .enter parts = .skipChildren opening)
    (hwrap : opening = (setting context place element).wrap body) :
    (standard context).around place element parts =
      .visit element.id .enter ((setting context place element).wrap body ++
        .visit element.id .leave (setting context place element).closing) := by
  rw [around_of_skipChildren place henter, hwrap, render_leave_eq context place element parts hkind]

end

theorem around_eq (element : Element) (parts : List Layout) (hkind : element.kind ≠ .emphasis) :
    (standard context).around place element parts =
      .visit element.id .enter
        ((setting context place element).wrap
          (if element.kind.isOpaque then .done else .concat parts) ++
        .visit element.id .leave (setting context place element).closing) := by
  obtain ⟨id, node, children⟩ := element
  cases node with
  | emphasis level => exact absurd rfl hkind
  | document | strikethrough | textBlock | list | heading | thematicBreak | link | string
  | fencedCodeBlock | htmlBlock | text =>
      exact around_eq_of_descend hkind rfl (Layout.append_done _).symm
  | codeBlock lines =>
      have henter : (standard context).render place (.mk id (.codeBlock lines) children) .enter
          parts = .descend ((standard context).render place (.mk id (.codeBlock lines) children)
            .enter []).layout := by
        simp only [render_standard, builtIn, Element.kind, Element.node, Node.kind,
          Block.codeBlock]
        split <;> rfl
      exact around_eq_of_descend hkind henter (Layout.append_done _).symm
  | paragraph =>
      have henter : (standard context).render place (.mk id .paragraph children) .enter parts =
          .skipChildren ((setting context place (.mk id .paragraph children)).wrap
            (.concat parts)) := by
        simp only [render_standard, builtIn, Element.kind, Element.node, Node.kind,
          Block.paragraph, setting, Setting.wrap]
        split
        · next hapart => simp [hapart, Layout.when, Layout.under, Visit.children]
        · next hapart => simp [hapart, Layout.when, Layout.under, Visit.children]
      exact around_eq_of_skipChildren hkind henter rfl
  | blockquote | listItem =>
      exact around_eq_of_skipChildren hkind rfl (Layout.append_done _).symm
  | autoLink | codeSpan | image | rawHtml =>
      refine around_eq_of_skipChildren hkind rfl ?_
      exact ((Layout.append_done _).trans (Layout.append_done _)).symm

/-- All that a node writes itself is plain. -/
structure Setting.IsPlain (setting : Setting) : Prop where
  before : setting.before.IsPlain
  opening : setting.opening.IsPlain
  closing : setting.closing.IsPlain

theorem isPlain_setting_before (element : Element) (hkind : element.kind ≠ .emphasis) :
    (setting context place element).before.IsPlain := by
  obtain ⟨id, node, children⟩ := element
  cases node with
  | emphasis level => exact absurd rfl hkind
  | document | strikethrough | textBlock | list | heading | thematicBreak | link | string
  | autoLink | listItem => trivial
  | paragraph | blockquote | fencedCodeBlock | htmlBlock =>
      simp [setting, Element.kind, Element.node, Node.kind, render_standard, builtIn,
        Block.fencedCodeBlock, Block.htmlBlock, Visit.node, Rendering.descend]
  | text segment raw soft hard => cases raw <;> simp [setting, Element.kind, Element.node,
      Node.kind, render_standard, builtIn, Inline.text, Visit.node, Rendering.descend]
  | codeBlock lines =>
      simp only [setting, Element.kind, Element.node, Node.kind, render_standard, builtIn,
        Block.codeBlock]
      split
      · simp [Block.fencedCodeBlock, Rendering.descend]
      · exact Layout.isPlain_indentedCode _
  | codeSpan =>
      change (Layout.bytes _ ++ Layout.concat _).IsPlain
      rw [Layout.isPlain_append, List.map_map]
      exact ⟨trivial, Layout.isPlain_concat_bytes _ _⟩
  | image destination title alt =>
      simp [setting, Element.kind, Element.node, Node.kind, render_standard, builtIn,
        Inline.image, Visit.node, Rendering.skipChildren]
  | rawHtml segments => exact Layout.isPlain_concat_bytes _ _

theorem setting_isPlain (element : Element) (hkind : element.kind ≠ .emphasis) :
    (setting context place element).IsPlain where
  before := isPlain_setting_before context place element hkind
  opening := by
    unfold setting
    split <;> trivial
  closing := by
    rw [← render_leave_eq context place element [] hkind]
    exact isPlain_render_leave context place element [] hkind

theorem Setting.IsPlain.encloses {setting : Setting} (hplain : setting.IsPlain) :
    Layout.Encloses setting.wrap := by
  have hinner := (Layout.Encloses.opening hplain.opening).under setting.layers
  have hbefore := Layout.Encloses.after setting.before hplain.before hinner
  unfold Setting.wrap
  cases setting.isEnded with
  | true => exact .newline hbefore
  | false => simpa [Layout.when] using hbefore

/-- The node is visited, writes around what it lays out, and is left. -/
def Enclosed (id : NodeId) (kind : Kind) (parts : List Layout) (layout : Layout) : Prop :=
  ∃ wrap closing, Layout.Encloses wrap ∧ closing.IsPlain ∧
    layout = .visit id .enter (wrap (if kind.isOpaque then .done else .concat parts) ++
      .visit id .leave closing)

theorem around_enclosed (element : Element) (parts : List Layout)
    (hkind : element.kind ≠ .emphasis) :
    Enclosed element.id element.kind parts ((standard context).around place element parts) := by
  have hplain := setting_isPlain context place element hkind
  exact ⟨_, _, hplain.encloses, hplain.closing, around_eq context place element parts hkind⟩

/-! An emphasis stands between its delimiters, as far as they are written. -/

def marking (options : Options) (place : Place) (level : Nat) (phase : Phase) : Layout :=
  if Inline.isMerged place level phase then .done
  else match Inline.emphasisMark? options.terminalStyling phase level with
    | some mark => .bytes mark
    | none => .fail (.unsupportedEmphasis level)

theorem render_emphasis (id : NodeId) (level : Nat) (children : List Element) (phase : Phase)
    (parts : List Layout) :
    (standard context).render place (.mk id (.emphasis level) children) phase parts =
      .descend (marking context.options place level phase) := by
  change (if Inline.isMerged place level phase then Rendering.nothing
    else match Inline.emphasisMark? context.options.terminalStyling phase level with
      | some mark => .descend (.bytes mark)
      | none => .descend (.fail (.unsupportedEmphasis level))) = _
  unfold marking
  split
  · rfl
  · cases Inline.emphasisMark? context.options.terminalStyling phase level <;> rfl

theorem around_emphasis (id : NodeId) (level : Nat) (children : List Element)
    (parts : List Layout) :
    (standard context).around place (.mk id (.emphasis level) children) parts =
      .visit id .enter (marking context.options place level .enter ++ .concat parts ++
        .visit id .leave (marking context.options place level .leave)) := by
  rw [around_of_descend place (render_emphasis context place id level children .enter parts),
    render_emphasis]
  rfl

end Renderer

end Render

end CanonicalMarkdown
