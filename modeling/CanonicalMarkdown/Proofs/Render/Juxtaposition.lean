import CanonicalMarkdown.Proofs.Render.Quotation
import Mathlib

namespace CanonicalMarkdown

open Document Output

/-! Documents that are made of blocks. -/

/-- The kinds that stand directly in a document. -/
def Document.Kind.isDocumentBlock : Kind → Bool
  | .heading | .paragraph | .blockquote | .list | .codeBlock | .fencedCodeBlock | .htmlBlock
  | .thematicBreak => true
  | _ => false

structure Document.Element.HoldsBlocks (element : Element) : Prop where
  node_eq : element.node = .document
  blocks : ∀ child ∈ element.children, child.kind.isDocumentBlock = true

namespace Document.Tree

/-- A node directly in a document that is made of blocks, with all below it. -/
structure HasBlock (tree : Tree) (id : NodeId) (block : Element) : Prop where
  grown : tree.Grown
  holds : tree.root.HoldsBlocks
  parent_eq : tree.parentOf id = some rootId
  element_eq : tree.element? id = some block

namespace HasBlock

variable {tree : Tree} {id : NodeId} {block : Element} (hblock : tree.HasBlock id block)
include hblock

theorem isDocumentBlock : block.kind.isDocumentBlock = true := by
  have hlinked := hblock.grown.linked
  obtain ⟨-, hroot⟩ := hlinked.eq_of_element? hlinked.element?_root
  apply hblock.holds.blocks
  rw [hroot]
  exact List.mem_filterMap.mpr
    ⟨id, hlinked.mem_children.mpr hblock.parent_eq, hblock.element_eq⟩

theorem place_eq :
    tree.place id = ⟨[.document], (tree.place id).previous, (tree.place id).next⟩ := by
  have hlinked := hblock.grown.linked
  obtain ⟨hroot, -⟩ := hlinked.eq_of_element? hlinked.element?_root
  rw [hblock.holds.node_eq] at hroot
  have habove := hlinked.ancestors_place_child hblock.parent_eq hroot
  rw [hblock.grown.place_root] at habove
  exact congrArg (fun above => Place.mk above _ _) habove

end HasBlock

end Document.Tree

namespace Render

/-- What comes last stands at the end, if everything before it went through. -/
theorem Written.suffix_of_followedBy {before : Written} {data : Bytes}
    (hresult : (before.followedBy (.all data)).result = .ok ()) :
    data <:+ (before.followedBy (.all data)).state := by
  obtain ⟨result, output⟩ := before
  cases result with
  | error error => cases hresult
  | ok _ => exact List.suffix_append output data

theorem Layout.concat_append (first second : List Layout) :
    concat (first ++ second) = concat first ++ concat second := by
  induction first with
  | nil => rfl
  | cons part rest ih => rw [List.cons_append, concat, ih, concat, append_assoc]

namespace Renderer

variable (context : Context)

/-- The layout of a block that is all there is in a document. -/
def standalone (element : Element) : Layout :=
  (standard context).walk ⟨[.document], [], none⟩ element

section

variable {element : Element} (hblock : element.kind.isDocumentBlock = true)
include hblock

/-- Directly in a document a block does not look at its neighbours. -/
theorem render_block (previous : List Node) (next : Option Node) (phase : Phase)
    (parts : List Layout) :
    (standard context).render ⟨[.document], previous, next⟩ element phase parts =
      (standard context).render ⟨[.document], [], none⟩ element phase parts := by
  obtain ⟨id, node, children⟩ := element
  cases node with
  | heading | paragraph | blockquote | list | codeBlock | fencedCodeBlock | htmlBlock
  | thematicBreak => cases phase <;> rfl
  | _ => cases hblock

theorem walk_block (previous : List Node) (next : Option Node) :
    (standard context).walk ⟨[.document], previous, next⟩ element =
      standalone context element := by
  have hparts : (standard context).parts ⟨[.document], previous, next⟩ element =
      (standard context).parts ⟨[.document], [], none⟩ element := rfl
  rw [standalone, walk_eq, walk_eq, hparts]
  simp only [around, render_block context hblock previous next]

theorem outcome_leave_block (hhtml : element.kind ≠ .htmlBlock) (parts : List Layout) :
    ∃ before : Written,
      ((standard context).render ⟨[.document], [], none⟩ element .leave parts).layout.outcome =
        before.followedBy (.all [Bytes.newline, Bytes.newline]) := by
  obtain ⟨id, node, children⟩ := element
  cases node with
  | heading | paragraph | blockquote | list | thematicBreak => exact ⟨.all [], rfl⟩
  | codeBlock | fencedCodeBlock => exact ⟨_, Layout.outcome_append _ _⟩
  | htmlBlock => exact absurd rfl hhtml
  | _ => cases hblock

theorem outcome_standalone (hhtml : element.kind ≠ .htmlBlock) :
    ∃ before : Written, (standalone context element).outcome =
      before.followedBy (.all [Bytes.newline, Bytes.newline]) := by
  obtain ⟨before, hleave⟩ := outcome_leave_block context hblock hhtml
    ((standard context).parts ⟨[.document], [], none⟩ element)
  rw [standalone, walk_eq, around, Layout.outcome_visit, Layout.outcome_append,
    Layout.outcome_visit, hleave, ← Written.followedBy_assoc]
  exact ⟨_, rfl⟩

end

theorem walkEach_blocks {elements : List Element}
    (hblocks : ∀ element ∈ elements, element.kind.isDocumentBlock = true) (previous : List Node) :
    (standard context).walkEach [.document] previous elements =
      elements.map (standalone context) := by
  induction elements generalizing previous with
  | nil => rfl
  | cons element rest ih =>
      have hrest := ih (fun other hother => hblocks other (by simp [hother]))
        (element.node :: previous)
      rw [walkEach, walk_block context (hblocks element (by simp)), hrest, List.map_cons]

theorem outcome_standalone_eq {element twin : Element} (hshape : element.shape = twin.shape) :
    (standalone context element).outcome = (standalone context twin).outcome :=
  outcome_walk context (Alike.refl _) [] none element hshape fun _ => rfl

/-- The children of the root by their numbers, each at its own place. -/
theorem parts_root (renderer : Renderer) {tree : Tree} (hgrown : tree.Grown) :
    renderer.parts Place.root tree.root =
      (tree.children Tree.rootId).map (renderer.layoutOf tree) := by
  have hlinked := hgrown.linked
  obtain ⟨hnode, hroot⟩ := hlinked.eq_of_element? hlinked.element?_root
  rw [← hgrown.place_root, hroot]
  exact renderer.parts_eq hlinked hnode

theorem layoutOf_block {tree : Tree} {id : NodeId} {block : Element}
    (hblock : tree.HasBlock id block) :
    (standard context).layoutOf tree id = standalone context block := by
  rw [layoutOf, hblock.element_eq, Option.map_some, Option.getD_some, hblock.place_eq,
    walk_block context hblock.isDocumentBlock]

/-- A document of blocks writes what its blocks write by themselves, one after the other. -/
theorem outcome_walk_blocks {element : Element} (hholds : element.HoldsBlocks) :
    ((standard context).walk Place.root element).outcome =
      (Layout.concat (element.children.map (standalone context))).outcome := by
  rw [outcome_walk_document context Place.root hholds.node_eq, content, parts, hholds.node_eq]
  exact congrArg (fun parts => (Layout.concat parts).outcome)
    (walkEach_blocks context hholds.blocks [])

theorem outcome_walk_joined {first second joined : Element} (hfirst : first.HoldsBlocks)
    (hsecond : second.HoldsBlocks)
    (hjoined : joined.shape = .mk .document
      (Element.shapeOfAll first.children ++ Element.shapeOfAll second.children)) :
    ((standard context).walk Place.root joined).outcome =
      ((standard context).walk Place.root first).outcome.followedBy
        ((standard context).walk Place.root second).outcome := by
  obtain ⟨hnode, hchildren⟩ := Element.shape_eq_mk_iff.mp hjoined
  have hshapes : Element.shapeOfAll joined.children =
      Element.shapeOfAll (first.children ++ second.children) := by
    rw [hchildren, Element.shapeOfAll_eq, Element.shapeOfAll_eq, Element.shapeOfAll_eq,
      List.map_append]
  have hblocks : ∀ child ∈ first.children ++ second.children,
      child.kind.isDocumentBlock = true := by
    intro child hchild
    rcases List.mem_append.mp hchild with hchild | hchild
    · exact hfirst.blocks child hchild
    · exact hsecond.blocks child hchild
  have hparts := outcome_walkEach context (Alike.refl [.document]) [] joined.children hshapes
    fun _ _ _ => rfl
  rw [outcome_walk_document context Place.root hnode, content, parts, hnode]
  calc
    _ = (Layout.concat ((first.children ++ second.children).map (standalone context))).outcome := by
        rw [← walkEach_blocks context hblocks []]
        exact Layout.outcome_concat hparts
    _ = _ := by
        rw [List.map_append, Layout.concat_append, Layout.outcome_append,
          ← outcome_walk_blocks context hfirst, ← outcome_walk_blocks context hsecond]

end Renderer

/-- Blocks directly in a document are laid out independently of one another. A document that holds
the blocks of one document and then those of another writes what the two write, or fails as the
first of them that fails. What a block contributes depends on the block alone, wherever it stands in
whichever document, and unless the block is HTML or fails it ends in a blank line. -/
theorem Formatter.blocks_stand_alone (options : Options) (formatCode : CodeFormatter)
    (source : Source) :
    let formatter : Formatter := { options, formatCode }
    let body tree := (formatter.body source tree).run Buffer.empty
    let contribution tree id := ((formatter.renderer source).layoutOf tree id).run Buffer.empty
    (∀ first second joined : Tree, first.root.HoldsBlocks → second.root.HoldsBlocks →
      joined.root.shape = .mk .document
        (Element.shapeOfAll first.root.children ++ Element.shapeOfAll second.root.children) →
      match (body first).result with
      | .ok _ =>
          (body joined).result = (body second).result ∧
            Sink.contents (body joined).state =
              Sink.contents (body first).state ++ Sink.contents (body second).state
      | .error error =>
          (body joined).result = .error error ∧
            Sink.contents (body joined).state = Sink.contents (body first).state) ∧
    (∀ tree : Tree, tree.Grown → tree.root.node = .document →
      body tree = (Layout.concat ((tree.children Tree.rootId).map
        ((formatter.renderer source).layoutOf tree))).run Buffer.empty) ∧
    (∀ tree id block other twin double, Tree.HasBlock tree id block →
      Tree.HasBlock other twin double → block.shape = double.shape →
      contribution tree id = contribution other twin) ∧
    ∀ tree id block, Tree.HasBlock tree id block → block.kind ≠ .htmlBlock →
      (contribution tree id).result = .ok () →
      [Bytes.newline, Bytes.newline] <:+ Sink.contents (contribution tree id).state := by
  intro formatter body contribution
  let context : Context := { source, options, formatCode }
  have hrenderer : formatter.renderer source = Renderer.standard context := rfl
  refine ⟨?_, ?_, ?_, ?_⟩
  · intro first second joined hfirst hsecond hjoined
    have houtcome := Renderer.outcome_walk_joined context hfirst hsecond hjoined
    simp only [body, Layout.run_eq, Buffer.contents_fed_empty, Layout.output, Formatter.body,
      hrenderer, houtcome]
    cases ((Renderer.standard context).walk Place.root first.root).outcome with
    | mk result output => cases result <;> exact ⟨rfl, rfl⟩
  · intro tree hgrown hdocument
    have houtcome := Renderer.outcome_walk_document context Place.root hdocument
    rw [Renderer.content, Renderer.parts_root _ hgrown] at houtcome
    simp only [body, hrenderer, Formatter.body, Layout.run_eq, Layout.output, houtcome]
  · intro tree id block other twin double hblock hdouble hshape
    have houtcome := Renderer.outcome_standalone_eq context hshape
    simp only [contribution, hrenderer, Renderer.layoutOf_block context hblock,
      Renderer.layoutOf_block context hdouble, Layout.run_eq, Layout.output, houtcome]
  · intro tree id block hblock hhtml hresult
    obtain ⟨before, houtcome⟩ :=
      Renderer.outcome_standalone context hblock.isDocumentBlock hhtml
    simp only [contribution, hrenderer, Renderer.layoutOf_block context hblock, Layout.run_eq,
      Buffer.contents_fed_empty, Layout.output, houtcome] at hresult ⊢
    exact Written.suffix_of_followedBy hresult

/-- A heading, a block of code, and the two in one document. -/
def onlyTitle : Tree := (Tree.new.appended Tree.rootId (.heading 2)).appended 1 (.string "a")

def onlyCode : Tree := Tree.new.appended Tree.rootId (.codeBlock [⟨0, 1⟩])

def titleAboveCode : Tree := onlyTitle.appended Tree.rootId (.codeBlock [⟨0, 1⟩])

theorem onlyCode_hasBlock : onlyCode.HasBlock 1 (.mk 1 (.codeBlock [⟨0, 1⟩]) []) where
  grown := .append .new (Tree.append?_of_lt (by decide) _)
  holds := ⟨rfl, by decide⟩
  parent_eq := rfl
  element_eq := rfl

theorem titleAboveCode_hasBlock : titleAboveCode.HasBlock 3 (.mk 3 (.codeBlock [⟨0, 1⟩]) []) where
  grown := .append (.append (.append .new (Tree.append?_of_lt (by decide) _))
    (Tree.append?_of_lt (by decide) _)) (Tree.append?_of_lt (by decide) _)
  holds := ⟨rfl, by decide⟩
  parent_eq := rfl
  element_eq := rfl

theorem Formatter.titleAboveCode_stands_alone :
    let formatter : Formatter := {}
    let body tree := (formatter.body #[120] tree).run Buffer.empty
    let contribution tree id := ((formatter.renderer #[120]).layoutOf tree id).run Buffer.empty
    onlyTitle.root.HoldsBlocks ∧ onlyCode.root.HoldsBlocks ∧
      Sink.contents (body titleAboveCode).state =
        Bytes.ofText "## a\n\n" ++ Bytes.ofText "```\nx\n```\n\n" ∧
      contribution titleAboveCode 3 = contribution onlyCode 1 ∧
      [Bytes.newline, Bytes.newline] <:+ Sink.contents (contribution titleAboveCode 3).state := by
  have htitle : onlyTitle.root.HoldsBlocks := ⟨rfl, by decide⟩
  have hcode := onlyCode_hasBlock.holds
  have hshape : titleAboveCode.root.shape = .mk .document
      (Element.shapeOfAll onlyTitle.root.children ++ Element.shapeOfAll onlyCode.root.children) :=
    rfl
  have hresult : ((({} : Formatter).body #[120] onlyTitle).run Buffer.empty).result = .ok () := by
    cbv
  have htext : Sink.contents ((({} : Formatter).body #[120] onlyTitle).run Buffer.empty).state =
      Bytes.ofText "## a\n\n" := by decide +kernel
  have hfenced : Sink.contents ((({} : Formatter).body #[120] onlyCode).run Buffer.empty).state =
      Bytes.ofText "```\nx\n```\n\n" := by decide +kernel
  have hwritten : (((({} : Formatter).renderer #[120]).layoutOf titleAboveCode 3).run
      Buffer.empty).result = .ok () := by cbv
  obtain ⟨hjoined, -, halone, hends⟩ := Formatter.blocks_stand_alone {} .none #[120]
  have hbody := hjoined onlyTitle onlyCode titleAboveCode htitle hcode hshape
  simp only [hresult, htext, hfenced] at hbody
  exact ⟨htitle, hcode, hbody.2,
    halone _ _ _ _ _ _ titleAboveCode_hasBlock onlyCode_hasBlock rfl,
    hends _ _ _ titleAboveCode_hasBlock (by decide) hwritten⟩

end Render

end CanonicalMarkdown
