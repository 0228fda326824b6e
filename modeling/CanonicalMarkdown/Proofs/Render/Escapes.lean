import CanonicalMarkdown.Proofs.Render.InlineContent

namespace CanonicalMarkdown

open Document Output

/-- A layer that puts no escapes in, and drops nothing but newlines. -/
def Output.Layer.EscapeFree : Layer → Prop
  | .margin marker _ => Render.Inline.escapeByte ∉ marker
  | .trim byte pending => byte = Bytes.newline ∧ pending = 0

namespace Render

/-! Writing that has no escapes in it. -/

namespace Layout

def EscapeFree : Layout → Prop
  | .done => True
  | .fail _ => False
  | .visit _ _ _ => False
  | .write chunk rest => Inline.escapeByte ∉ chunk.data ∧ rest.EscapeFree
  | .within layer body rest => layer.EscapeFree ∧ body.EscapeFree ∧ rest.EscapeFree

@[simp] theorem escapeFree_done : done.EscapeFree := trivial

@[simp] theorem escapeFree_bytes (data : Bytes) :
    (bytes data).EscapeFree ↔ Inline.escapeByte ∉ data := by
  simp [bytes, EscapeFree, Chunk.data]

@[simp] theorem escapeFree_text (content : String) :
    (text content).EscapeFree ↔ Inline.escapeByte ∉ Bytes.ofText content := by
  simp [text, EscapeFree, Chunk.data]

@[simp] theorem escapeFree_newline : newline.EscapeFree := ⟨by decide, trivial⟩

@[simp] theorem escapeFree_blankLine : blankLine.EscapeFree := ⟨by decide, trivial⟩

@[simp] theorem escapeFree_append (first second : Layout) :
    (first ++ second).EscapeFree ↔ first.EscapeFree ∧ second.EscapeFree := by
  induction first with
  | done => simp
  | fail error => simp [EscapeFree]
  | visit node phase rest _ => simp [EscapeFree]
  | write chunk rest ih => simp [EscapeFree, ih, and_assoc]
  | within layer body rest _ ih => simp [EscapeFree, ih, and_assoc]

@[simp] theorem escapeFree_when (condition : Bool) (layout : Layout) :
    (when condition layout).EscapeFree ↔ (condition = true → layout.EscapeFree) := by
  cases condition <;> simp [when]

theorem escapeFree_concat_bytes {α : Type} (pieces : List α) (data : α → Bytes) :
    (concat (pieces.map fun piece => bytes (data piece))).EscapeFree ↔
      ∀ piece ∈ pieces, Inline.escapeByte ∉ data piece := by
  induction pieces with
  | nil => simp [concat]
  | cons piece rest ih => simp [concat, ih]

end Layout

/-! Nodes whose texts have no escapes in them write none, emphasis apart. -/

/-- The texts that a node holds, with code as it is and as it is formatted. -/
def Context.texts (context : Context) : Node → List Bytes
  | .codeBlock lines => [context.join lines, context.formatted "" (context.join lines)]
  | .fencedCodeBlock language lines =>
      [Bytes.ofText (language.getD ""),
        context.formatted (language.getD "") (context.join lines)]
  | .htmlBlock lines closure =>
      context.formatted Block.htmlLanguage (context.join lines) ::
        (closure.map (Segment.value context.source)).toList
  | node => node.payload context.source

def Context.EscapeFree (context : Context) (node : Node) : Prop :=
  ∀ text ∈ context.texts node, Inline.escapeByte ∉ text

instance (context : Context) (node : Node) : Decidable (context.EscapeFree node) :=
  inferInstanceAs (Decidable (∀ text ∈ context.texts node, Inline.escapeByte ∉ text))

theorem Context.forall_escapeFree {context : Context} {tree : Tree}
    (hall : ∀ id < tree.size, ∀ node ∈ tree.node? id, context.EscapeFree node) {id : NodeId}
    {node : Node} (hnode : tree.node? id = some node) : context.EscapeFree node :=
  hall id (Tree.lt_of_node? hnode) node hnode

theorem escapeFree_target {destination title : String}
    (hdestination : Inline.escapeByte ∉ Bytes.ofText destination)
    (htitle : Inline.escapeByte ∉ Bytes.ofText title) :
    (Inline.target destination title).EscapeFree := by
  have hopening : Inline.escapeByte ∉ Bytes.ofText "](" := by decide
  have hquote : Inline.escapeByte ∉ Bytes.ofText " \"" := by decide
  have hend : Inline.escapeByte ∉ Bytes.ofText "\"" := by decide
  have hclosing : Inline.escapeByte ∉ Bytes.ofText ")" := by decide
  have htitled : (Inline.title title).EscapeFree := by
    unfold Inline.title
    split <;> simp [Bytes.ofText_append, hquote, hend, htitle]
  simp [Inline.target, Bytes.ofText_append, hopening, hdestination, htitled, hclosing]

theorem escapeFree_lineBreak (options : Options) (place : Place) (soft hard : Bool) :
    (Inline.lineBreak options place soft hard).EscapeFree := by
  unfold Inline.lineBreak
  split_ifs <;> simp

theorem escapeFree_indentedCode {code : Bytes} (hcode : Inline.escapeByte ∉ code) :
    (Block.indentedCode code).EscapeFree := by
  have hlines : ∀ line ∈ Block.rebased code, Inline.escapeByte ∉ line := by
    intro line hline
    obtain ⟨own, hown, rfl⟩ := List.mem_map.mp hline
    split
    · decide
    · intro hescape
      apply hcode
      rw [← Bytes.flatten_lines code]
      exact List.mem_flatten_of_mem hown (List.mem_of_mem_drop hescape)
  have hlayer : ((Layer.indent Block.codeIndent).atLineStart).EscapeFree := by
    change Inline.escapeByte ∉ List.replicate Block.codeIndent Bytes.space
    decide
  rw [Block.indentedCode, Layout.escapeFree_append]
  have hcode := (Layout.escapeFree_concat_bytes _ id).mpr hlines
  exact ⟨Layout.escapeFree_newline, hlayer, hcode, trivial⟩

theorem escapeFree_code {context : Context} {language : String} {lines : List Segment}
    (hcode : Inline.escapeByte ∉ context.formatted language (context.join lines)) :
    (context.code language lines).EscapeFree := by
  simp [Context.code, hcode]

theorem escape_not_mem_fence (code : Bytes) : Inline.escapeByte ∉ Block.fence code := by
  intro hmem
  cases List.eq_of_mem_replicate hmem

theorem escapeFree_fenced {context : Context} {language : String} {lines : List Segment}
    {code : Bytes} (hlanguage : Inline.escapeByte ∉ Bytes.ofText language)
    (hcode : Inline.escapeByte ∉ context.formatted language (context.join lines)) :
    (.bytes (Block.fence code) ++ .text language ++ .newline ++
      context.code language lines : Layout).EscapeFree := by
  simp [escape_not_mem_fence, hlanguage, escapeFree_code hcode]

theorem escape_not_mem_literal {context : Context} {node : Node} (hfree : context.EscapeFree node) :
    Inline.escapeByte ∉ Inline.literal context.source node := by
  cases node with
  | text | string => exact hfree _ List.mem_cons_self
  | _ => simp [Inline.literal]

namespace Renderer

structure Setting.EscapeFree (setting : Setting) : Prop where
  before : setting.before.EscapeFree
  layers : ∀ layer ∈ setting.layers, layer.EscapeFree
  opening : setting.opening.EscapeFree
  closing : setting.closing.EscapeFree

variable (context : Context) (place : Place)

theorem escapeFree_setting_before {element : Element} (hkind : element.kind ≠ .emphasis)
    (hfree : context.EscapeFree element.node)
    (hchildren : ∀ child ∈ element.children, context.EscapeFree child.node) :
    (setting context place element).before.EscapeFree := by
  obtain ⟨id, node, children⟩ := element
  cases node with
  | emphasis level => exact absurd rfl hkind
  | document | strikethrough | textBlock | list | listItem => trivial
  | paragraph | blockquote => simp [setting, Element.kind, Element.node, Node.kind]
  | thematicBreak | link => exact (Layout.escapeFree_text _).mpr (by decide)
  | heading level =>
      have hmarks : Inline.escapeByte ∉ List.replicate level (35 : UInt8) := by
        intro hmem
        cases List.eq_of_mem_replicate hmem
      have hspace : Inline.escapeByte ∉ [Bytes.space] := by decide
      refine (Layout.escapeFree_bytes (List.replicate level 35 ++ [Bytes.space])).mpr ?_
      rw [List.mem_append, not_or]
      exact ⟨hmarks, hspace⟩
  | autoLink url =>
      exact ⟨by decide, hfree _ List.mem_cons_self, trivial⟩
  | string value => exact (Layout.escapeFree_text value).mpr (hfree _ List.mem_cons_self)
  | text segment raw soft hard =>
      have hsegment : (Layout.bytes (segment.value context.source)).EscapeFree :=
        (Layout.escapeFree_bytes _).mpr (hfree _ List.mem_cons_self)
      refine (Layout.escapeFree_append _ _).mpr ⟨hsegment, ?_⟩
      cases raw with
      | true => trivial
      | false => exact escapeFree_lineBreak _ _ _ _
  | fencedCodeBlock language lines =>
      exact escapeFree_fenced (hfree _ List.mem_cons_self)
        (hfree _ (List.mem_cons_of_mem _ List.mem_cons_self))
  | htmlBlock lines closure => exact escapeFree_code (hfree _ List.mem_cons_self)
  | codeBlock lines =>
      simp only [setting, Element.kind, Element.node, Node.kind, render_standard, builtIn,
        Block.codeBlock]
      split
      · exact escapeFree_fenced (by decide) (hfree _ (List.mem_cons_of_mem _ List.mem_cons_self))
      · exact escapeFree_indentedCode (hfree _ List.mem_cons_self)
  | codeSpan =>
      refine (Layout.escapeFree_append _ _).mpr ⟨(Layout.escapeFree_bytes _).mpr ?_, ?_⟩
      · rw [List.mem_append, not_or]
        exact ⟨not_mem_codeDelimiter (by decide) _, not_mem_codePadding (by decide) _⟩
      · rw [List.map_map]
        exact (Layout.escapeFree_concat_bytes children _).mpr fun child hchild =>
          escape_not_mem_literal (hchildren child hchild)
  | image destination title alt =>
      have hopening : Inline.escapeByte ∉ Bytes.ofText "![" := by decide
      have halt : Inline.escapeByte ∉ Bytes.ofText alt :=
        hfree _ (List.mem_cons_of_mem _ (List.mem_cons_of_mem _ List.mem_cons_self))
      have hshown : (Layout.text ("![" ++ alt)).EscapeFree := by
        simp [Bytes.ofText_append, hopening, halt]
      have htarget := escapeFree_target (hfree _ List.mem_cons_self)
        (hfree _ (List.mem_cons_of_mem _ List.mem_cons_self))
      have hwhole := (Layout.escapeFree_append _ _).mpr ⟨hshown, htarget⟩
      exact (Layout.escapeFree_append _ _).mpr ⟨hwhole, by simp⟩
  | rawHtml segments =>
      exact (Layout.escapeFree_concat_bytes segments _).mpr fun segment hsegment =>
        hfree _ (List.mem_map_of_mem hsegment)

theorem escapeFree_setting_closing {element : Element} (hkind : element.kind ≠ .emphasis)
    (hfree : context.EscapeFree element.node) :
    (setting context place element).closing.EscapeFree := by
  obtain ⟨id, node, children⟩ := element
  cases node with
  | emphasis level => exact absurd rfl hkind
  | document | strikethrough | image | rawHtml | text => trivial
  | heading | thematicBreak | blockquote => exact Layout.escapeFree_blankLine
  | textBlock | listItem | string => exact (Layout.escapeFree_when _ _).mpr (by simp)
  | autoLink url => exact (Layout.escapeFree_text _).mpr (by decide)
  | paragraph =>
      change (if !place.isInList then Rendering.descend .blankLine
        else .descend (.when place.hasNext .newline)).layout.EscapeFree
      split <;> simp [Rendering.descend]
  | list ordered start =>
      change (if place.parent?.any (·.kind == .listItem) then
        Rendering.descend (.when place.hasNext .newline)
        else .descend .blankLine).layout.EscapeFree
      split <;> simp [Rendering.descend]
  | link destination title =>
      exact escapeFree_target (hfree _ List.mem_cons_self)
        (hfree _ (List.mem_cons_of_mem _ List.mem_cons_self))
  | codeSpan =>
      refine (Layout.escapeFree_bytes _).mpr ?_
      rw [List.mem_append, not_or]
      exact ⟨not_mem_codePadding (by decide) _, not_mem_codeDelimiter (by decide) _⟩
  | fencedCodeBlock language lines =>
      refine (Layout.escapeFree_append _ _).mpr ⟨(Layout.escapeFree_bytes _).mpr ?_, by simp⟩
      exact escape_not_mem_fence _
  | codeBlock lines =>
      simp only [setting, Element.kind, Element.node, Node.kind, render_standard, builtIn,
        Block.codeBlock]
      split
      · simp [Block.fencedCodeBlock, Rendering.descend, escape_not_mem_fence]
      · trivial
  | htmlBlock lines closure =>
      cases closure with
      | none => exact Layout.escapeFree_newline
      | some segment =>
          refine (Layout.escapeFree_append _ _).mpr ⟨(Layout.escapeFree_bytes _).mpr ?_, by simp⟩
          exact hfree _ (List.mem_cons_of_mem _ List.mem_cons_self)

theorem setting_escapeFree {element : Element} (hkind : element.kind ≠ .emphasis)
    (hfree : context.EscapeFree element.node)
    (hchildren : ∀ child ∈ element.children, context.EscapeFree child.node) :
    (setting context place element).EscapeFree := by
  have hmarker : Inline.escapeByte ∉ Block.itemMarker place :=
    not_mem_itemMarker (c := '\x1b') (by decide) rfl rfl (by decide) place
  refine ⟨escapeFree_setting_before context place hkind hfree hchildren, ?_, ?_,
    escapeFree_setting_closing context place hkind hfree⟩
  · unfold setting
    split
    · simp
    · rw [List.forall_mem_cons, List.forall_mem_singleton]
      exact ⟨by change Inline.escapeByte ∉ Block.quoteMarker; decide, rfl, rfl⟩
    · rw [List.forall_mem_singleton]
      intro hmem
      cases List.eq_of_mem_replicate hmem
    · simp
  · unfold setting
    split <;> simp [hmarker]

section

variable {context} {tree : Tree} (hlinked : tree.Linked)
  (hfree : ∀ id node, tree.node? id = some node → context.EscapeFree node)
include hlinked hfree

theorem setting_escapeFree_of_node {id : NodeId} {node : Node} (hnode : tree.node? id = some node)
    (hkind : node.kind ≠ .emphasis) :
    (setting context (tree.place id)
      (.mk id node (tree.elements (tree.children id)))).EscapeFree := by
  refine setting_escapeFree context (tree.place id) hkind (hfree id node hnode) ?_
  intro child hchild
  obtain ⟨own, -, helement⟩ := List.mem_filterMap.mp hchild
  obtain ⟨inner, hinner, rfl⟩ := Option.map_eq_some_iff.mp helement
  have hnodes := hlinked.element?_eq hinner
  rw [Option.some.inj (helement.symm.trans hnodes)]
  exact hfree own inner hinner

end

end Renderer

theorem FrontMatter.escapeFree_layout {metadata : Option Yaml.Value} {block : Bytes}
    (hencoded : encoded metadata = .ok block) (hblock : Inline.escapeByte ∉ block) :
    (layout metadata).EscapeFree := by
  obtain hlayout | ⟨yaml, hlayout, rfl⟩ := layout_eq hencoded
  · rw [hlayout]
    trivial
  · have hdelimiter : Inline.escapeByte ∉ Bytes.ofText delimiter := by decide
    have hyaml : Inline.escapeByte ∉ Bytes.ofText yaml := by
      intro hmem
      simp [enclosed, hmem] at hblock
    simp [hlayout, FrontMatter.block, hyaml, hdelimiter]

end Render

end CanonicalMarkdown
