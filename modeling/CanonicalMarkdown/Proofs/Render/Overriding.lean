import CanonicalMarkdown.Proofs.Render.Failure
import Mathlib

namespace CanonicalMarkdown.Render

open Document Output

namespace Overrides

/-- The overrides after a sequence of inserts. -/
def ofInserts (inserts : List (Kind × RenderFn)) : Overrides :=
  inserts.foldl (fun overrides entry => overrides.insert entry.1 entry.2) empty

/-- The last insert for a kind counts. -/
theorem renderFn_ofInserts (inserts : List (Kind × RenderFn)) (kind : Kind) :
    (ofInserts inserts).renderFn kind = (inserts.reverse.lookup kind).getD (builtIn kind) := by
  have hfind : (ofInserts inserts).find? kind = inserts.reverse.lookup kind := by
    induction inserts using List.reverseRecOn with
    | nil => rfl
    | append_singleton inserts entry ih =>
        have hlast : ofInserts (inserts ++ [entry]) =
            (ofInserts inserts).insert entry.1 entry.2 := by
          simp [ofInserts]
        rw [hlast, List.reverse_concat, List.lookup_cons, ← ih]
        by_cases hkind : kind = entry.1
        · simp [insert, hkind]
        · simp [insert, hkind, beq_false_of_ne hkind]
  rw [renderFn, hfind]

/-- Every kind but this one keeps its built-in function. -/
def Only (overrides : Overrides) (kind : Kind) : Prop :=
  ∀ other, other ≠ kind → overrides.find? other = none

theorem Only.insert {overrides : Overrides} {kind : Kind} (honly : overrides.Only kind)
    (render : RenderFn) : (overrides.insert kind render).Only kind := by
  intro other hother
  simp [Overrides.insert, hother, honly other hother]

end Overrides

/-! What a built-in function does not look at. -/

/-- No built-in function calls another through the table. -/
theorem builtIn_inEffect (kind : Kind) (visit : Visit) (inEffect : Kind → Rendering) :
    builtIn kind { visit with inEffect } = builtIn kind visit := by
  cases kind <;> rfl

namespace Renderer

theorem render_eq (renderer : Renderer) (place : Place) (element : Element) (phase : Phase)
    (parts : List Layout) :
    renderer.render place element phase parts =
      renderer.overrides.renderFn element.kind {
        context := renderer.context
        place, element, phase, parts
        inEffect := renderer.call place element phase parts 19 } := rfl

/-- A node that stands for itself is laid out without the layouts of what is below it. -/
theorem around_of_isOpaque (context : Context) (place : Place) {element : Element}
    (hhides : element.kind.isOpaque = true) (parts others : List Layout) :
    (standard context).around place element parts =
      (standard context).around place element others := by
  obtain ⟨id, node, children⟩ := element
  cases node with
  | autoLink | codeSpan | image | rawHtml => rfl
  | _ => cases hhides

theorem render_builtIn (renderer : Renderer) (place : Place) {element : Element}
    (hbuiltIn : renderer.overrides.find? element.kind = none) (phase : Phase)
    (parts : List Layout) :
    renderer.render place element phase parts =
      (standard renderer.context).render place element phase parts := by
  have hfunction : renderer.overrides.renderFn element.kind = builtIn element.kind := by
    rw [Overrides.renderFn, hbuiltIn]
    rfl
  rw [render_eq, hfunction, render_standard]
  exact (builtIn_inEffect element.kind _ _).symm

variable {renderer : Renderer} {kind : Kind} (honly : renderer.overrides.Only kind)
include honly

theorem render_eq_standard (place : Place) {element : Element} (hkind : element.kind ≠ kind)
    (phase : Phase) (parts : List Layout) :
    renderer.render place element phase parts =
      (standard renderer.context).render place element phase parts :=
  renderer.render_builtIn place (honly element.kind hkind) phase parts

theorem around_eq_standard (place : Place) {element : Element} (hkind : element.kind ≠ kind)
    (parts : List Layout) :
    renderer.around place element parts =
      (standard renderer.context).around place element parts := by
  simp only [around, render_eq_standard honly place hkind]

/-- An override for a kind that no visited node has is never called. -/
theorem layoutOf_eq_standard {tree : Tree} (hlinked : tree.Linked)
    (hunused : ∀ id node, tree.node? id = some node → tree.isVisited id = true →
      node.kind ≠ kind)
    {id : NodeId} (hid : id < tree.size) (hvisited : tree.isVisited id = true) :
    renderer.layoutOf tree id = (standard renderer.context).layoutOf tree id := by
  revert hvisited
  refine hlinked.of_children (motive := fun id => tree.isVisited id = true →
    renderer.layoutOf tree id = (standard renderer.context).layoutOf tree id) ?_ hid
  intro id node hnode ih hvisited
  let element : Element := .mk id node (tree.elements (tree.children id))
  have hkind : element.kind ≠ kind := hunused id node hnode hvisited
  rw [layoutOf_eq _ hlinked hnode, layoutOf_eq _ hlinked hnode, around_eq_standard honly _ hkind]
  cases hhides : element.kind.isOpaque with
  | true => exact around_of_isOpaque renderer.context _ hhides _ _
  | false =>
      have hchildren : (tree.children id).map (renderer.layoutOf tree) =
          (tree.children id).map ((standard renderer.context).layoutOf tree) := by
        apply List.map_congr_left
        intro child hchild
        have hparent := hlinked.mem_children.mp hchild
        exact ih child hchild ((hlinked.isVisited_child_iff hparent hnode).mpr ⟨hhides, hvisited⟩)
      rw [hchildren]

end Renderer

/-- The root is visited, so the whole body comes out as without overrides. -/
theorem Formatter.body_eq_standard {formatter : Formatter} {kind : Kind}
    (honly : formatter.overrides.Only kind) (source : Source) {tree : Tree} (hgrown : tree.Grown)
    (hunused : ∀ id node, tree.node? id = some node → tree.isVisited id = true →
      node.kind ≠ kind) :
    formatter.body source tree =
      ({ options := formatter.options, formatCode := formatter.formatCode } : Formatter).body source
        tree := by
  have honly : (formatter.renderer source).overrides.Only kind := honly
  rw [body_eq _ _ hgrown, body_eq _ _ hgrown]
  exact Renderer.layoutOf_eq_standard honly hgrown.linked hunused hgrown.linked.root_mem
    hgrown.isVisited_root

/-- Of the functions inserted for a kind the last is the one in effect, and every node is rendered
by the function in effect for its own kind. An override for a kind that no visited node has, where
all other functions are built in, changes neither the output nor the error of any document. -/
theorem Formatter.overrides_act_on_own_kind (options : Options) (formatCode : CodeFormatter)
    (source : Source) :
    (∀ inserts : List (Kind × RenderFn),
      let overrides := Overrides.ofInserts inserts
      let renderer := ({ overrides, options, formatCode } : Formatter).renderer source
      (∀ kind, overrides.renderFn kind =
        (inserts.reverse.lookup kind).getD (builtIn kind)) ∧
      ∀ place element phase parts, ∃ inEffect,
        renderer.render place element phase parts =
          overrides.renderFn element.kind
            { context := renderer.context, place, element, phase, parts, inEffect }) ∧
    ∀ (tree : Tree) (kind : Kind), tree.Grown →
      (∀ id node, tree.node? id = some node → tree.isVisited id = true → node.kind ≠ kind) →
      ∀ overrides : Overrides, overrides.Only kind → ∀ (override : RenderFn) metadata,
        ({ overrides := overrides.insert kind override, options, formatCode } : Formatter).render
            metadata source tree =
          ({ overrides, options, formatCode } : Formatter).render metadata source tree := by
  refine ⟨?_, ?_⟩
  · intro inserts overrides renderer
    refine ⟨Overrides.renderFn_ofInserts inserts, ?_⟩
    intro place element phase parts
    exact ⟨_, renderer.render_eq place element phase parts⟩
  · intro tree kind hgrown hunused overrides honly override metadata
    let plain : Formatter := { overrides, options, formatCode }
    let changed : Formatter :=
      { overrides := overrides.insert kind override, options, formatCode }
    have hplain : plain.overrides.Only kind := honly
    have hchanged : changed.overrides.Only kind := honly.insert override
    have hbody : changed.body source tree = plain.body source tree :=
      (body_eq_standard hchanged source hgrown hunused).trans
        (body_eq_standard hplain source hgrown hunused).symm
    change changed.render metadata source tree = plain.render metadata source tree
    rw [render, render, document, document, hbody]

/-- Code that is written with a fence although it had none, and a fence that no walk comes to. -/
def hiddenFence : Tree :=
  (((Tree.new.appended Tree.rootId (.codeBlock [⟨0, 1⟩])).appended Tree.rootId .paragraph).appended
    2 .codeSpan).appended 3 (.fencedCodeBlock none [])

theorem hiddenFence_grown : hiddenFence.Grown :=
  .append (.append (.append (.append .new (Tree.append?_of_lt (by decide) _))
    (Tree.append?_of_lt (by decide) _)) (Tree.append?_of_lt (by decide) _))
    (Tree.append?_of_lt (by decide) _)

theorem hiddenFence_unused (id : NodeId) (node : Node) (hnode : hiddenFence.node? id = some node)
    (hvisited : hiddenFence.isVisited id = true) : node.kind ≠ .fencedCodeBlock := by
  have hall : ∀ id < 5, hiddenFence.isVisited id = true →
      (hiddenFence.node? id).all (·.kind != .fencedCodeBlock) = true := by decide
  have hid : id < 5 := by
    obtain ⟨entry, hentry, -⟩ := Option.map_eq_some_iff.mp hnode
    exact Tree.lt_of_get? hentry
  have hkind := hall id hid hvisited
  rw [hnode] at hkind
  simpa using hkind

theorem Formatter.hiddenFence_keeps_fence :
    let fenced := Overrides.empty.insert .fencedCodeBlock fun _ => .skipChildren (.text "code")
    hiddenFence.Grown ∧ Overrides.empty.Only .fencedCodeBlock ∧
      ({ overrides := fenced } : Formatter).render none #[120] hiddenFence =
        .ok (Bytes.ofText "```\nx\n```\n\n``\n") := by
  have honly : Overrides.empty.Only .fencedCodeBlock := fun _ _ => rfl
  obtain ⟨-, hrender⟩ := Formatter.overrides_act_on_own_kind {} .none #[120]
  have hsame := hrender hiddenFence .fencedCodeBlock hiddenFence_grown hiddenFence_unused
    Overrides.empty honly (fun _ => .skipChildren (.text "code")) none
  have hplain : ({} : Formatter).render none #[120] hiddenFence =
      .ok (Bytes.ofText "```\nx\n```\n\n``\n") := by cbv
  exact ⟨hiddenFence_grown, honly, hsame.trans hplain⟩

end CanonicalMarkdown.Render
