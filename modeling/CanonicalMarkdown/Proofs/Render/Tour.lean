import CanonicalMarkdown.Proofs.Render.Calls
import CanonicalMarkdown.Proofs.Render.Unsupported

namespace CanonicalMarkdown

open Render

namespace Document

/-! The tour of a tree: each node is entered, then everything below it is, and then it is left. -/

namespace Element

mutual

/-- A tour that leaves out what is below the nodes at which it is pruned. -/
def tour (pruned : NodeId → Bool) : Element → List Call
  | .mk id _ children =>
      (id, .enter) :: ((if pruned id then [] else tourOfAll pruned children) ++ [(id, .leave)])

def tourOfAll (pruned : NodeId → Bool) : List Element → List Call
  | [] => []
  | element :: rest => element.tour pruned ++ tourOfAll pruned rest

end

theorem tourOfAll_eq (pruned : NodeId → Bool) (elements : List Element) :
    tourOfAll pruned elements = elements.flatMap (tour pruned) := by
  induction elements with
  | nil => rfl
  | cons element rest ih => rw [tourOfAll, ih, List.flatMap_cons]

end Element

namespace Tree

def tourAt (tree : Tree) (pruned : NodeId → Bool) (id : NodeId) : List Call :=
  ((tree.element? id).map (Element.tour pruned)).getD []

/-- Whether a node stands for itself. -/
def isOpaqueAt (tree : Tree) (id : NodeId) : Bool := (tree.node? id).any (·.kind.isOpaque)

theorem isOpaqueAt_eq {tree : Tree} {id : NodeId} {node : Node}
    (hnode : tree.node? id = some node) : tree.isOpaqueAt id = node.kind.isOpaque := by
  rw [isOpaqueAt, hnode, Option.any_some]

namespace Linked

variable {tree : Tree} (hlinked : tree.Linked) {pruned : NodeId → Bool}
include hlinked

theorem tourAt_root : tree.tourAt pruned rootId = tree.root.tour pruned := by
  rw [tourAt, hlinked.element?_root]
  rfl

theorem tourAt_eq {id : NodeId} {node : Node} (hnode : tree.node? id = some node) :
    tree.tourAt pruned id = (id, .enter) ::
      ((if pruned id then [] else (tree.children id).flatMap (tree.tourAt pruned)) ++
        [(id, .leave)]) := by
  have hbelow : (tree.elements (tree.children id)).flatMap (Element.tour pruned) =
      (tree.children id).flatMap (tree.tourAt pruned) := by
    rw [elements, List.filterMap_eq_flatMap_toList, List.flatMap_assoc]
    apply List.flatMap_congr
    intro child _
    rw [tourAt]
    cases tree.element? child with
    | none => rfl
    | some element => simp
  rw [tourAt, hlinked.element?_eq hnode, Option.map_some, Option.getD_some, Element.tour,
    Element.tourOfAll_eq, hbelow]

theorem mem_tourAt {id : NodeId} {node : Node} (hnode : tree.node? id = some node) {call : Call} :
    call ∈ tree.tourAt pruned id ↔ call.1 = id ∨
      pruned id = false ∧ ∃ child ∈ tree.children id, call ∈ tree.tourAt pruned child := by
  obtain ⟨other, phase⟩ := call
  have hown : (other, phase) = (id, .enter) ∨ (other, phase) = (id, .leave) ↔ other = id := by
    cases phase <;> simp
  rw [hlinked.tourAt_eq hnode, List.mem_cons, List.mem_append, List.mem_singleton, or_left_comm,
    or_comm, hown]
  cases pruned id <;> simp

theorem mem_preorder_of_mem_tourAt {id : NodeId} (hid : id < tree.size) {call : Call}
    (hcall : call ∈ tree.tourAt pruned id) : call.1 ∈ tree.preorder id := by
  revert hcall
  refine hlinked.of_children (motive := fun id => call ∈ tree.tourAt pruned id →
    call.1 ∈ tree.preorder id) ?_ hid
  intro id node hnode ih hcall
  rw [hlinked.preorder_eq hnode, List.mem_cons, List.mem_flatMap]
  rcases (hlinked.mem_tourAt hnode).mp hcall with hown | ⟨-, child, hchild, hbelow⟩
  · exact .inl hown
  · exact .inr ⟨child, hchild, ih child hchild hbelow⟩

/-- No node is entered or left twice. -/
theorem nodup_tourAt {id : NodeId} (hid : id < tree.size) (hnodup : (tree.preorder id).Nodup) :
    (tree.tourAt pruned id).Nodup := by
  revert hnodup
  refine hlinked.of_children (motive := fun id => (tree.preorder id).Nodup →
    (tree.tourAt pruned id).Nodup) ?_ hid
  intro id node hnode ih hnodup
  have hlt : ∀ child ∈ tree.children id, child < tree.size := fun child hchild =>
    lt_of_parentOf (hlinked.mem_children.mp hchild)
  rw [hlinked.preorder_eq hnode, List.nodup_cons, List.nodup_flatMap] at hnodup
  obtain ⟨hfresh, hchildren, hdisjoint⟩ := hnodup
  have hbelow : ∀ phase, (id, phase) ∉ (tree.children id).flatMap (tree.tourAt pruned) := by
    intro phase hcall
    obtain ⟨child, hchild, hcall⟩ := List.mem_flatMap.mp hcall
    have hmem := hlinked.mem_preorder_of_mem_tourAt (hlt child hchild) hcall
    exact hfresh (List.mem_flatMap.mpr ⟨child, hchild, hmem⟩)
  have hinner : ((tree.children id).flatMap (tree.tourAt pruned)).Nodup := by
    rw [List.nodup_flatMap]
    refine ⟨fun child hchild => ih child hchild (hchildren child hchild), ?_⟩
    refine hdisjoint.imp_of_mem ?_
    intro left right hleft hright hapart call hcallLeft hcallRight
    exact hapart (hlinked.mem_preorder_of_mem_tourAt (hlt left hleft) hcallLeft)
      (hlinked.mem_preorder_of_mem_tourAt (hlt right hright) hcallRight)
  rw [hlinked.tourAt_eq hnode]
  cases pruned id with
  | true => simp
  | false =>
      rw [if_neg Bool.false_ne_true, List.nodup_cons, (List.perm_append_singleton ..).nodup_iff,
        List.nodup_cons]
      refine ⟨?_, hbelow .leave, hinner⟩
      simp only [List.mem_append, List.mem_singleton, Prod.mk.injEq, reduceCtorEq, and_false,
        or_false]
      exact hbelow .enter

theorem nodup_tour_root : (tree.root.tour pruned).Nodup := by
  have hpreorder : (tree.preorder rootId).Nodup := by
    rw [hlinked.preorder_root, hlinked.ids_root_perm.nodup_iff]
    exact List.nodup_range
  rw [← hlinked.tourAt_root]
  exact hlinked.nodup_tourAt hlinked.root_mem hpreorder

theorem mem_tourAt_child {top id child : NodeId} (htop : top < tree.size) {phase other : Phase}
    (hid : (id, phase) ∈ tree.tourAt pruned top) (hopen : pruned id = false)
    (hchild : child ∈ tree.children id) : (child, other) ∈ tree.tourAt pruned top := by
  revert hid
  refine hlinked.of_children (motive := fun top => (id, phase) ∈ tree.tourAt pruned top →
    (child, other) ∈ tree.tourAt pruned top) ?_ htop
  intro top node hnode ih hid
  rw [hlinked.mem_tourAt hnode] at hid ⊢
  rcases hid with rfl | ⟨htop, inner, hinner, hbelow⟩
  · obtain ⟨own, hown⟩ := hlinked.exists_node?_of_mem_children hchild
    exact .inr ⟨hopen, child, hchild, (hlinked.mem_tourAt hown).mpr (.inl rfl)⟩
  · exact .inr ⟨htop, inner, hinner, ih inner hinner hbelow⟩

/-- Pruned below the nodes that stand for themselves, a tour comes to all nodes that are not below
one of them. -/
theorem mem_tour_isOpaqueAt_iff (hroot : tree.isVisited rootId = true) {id : NodeId}
    {phase : Phase} :
    (id, phase) ∈ tree.root.tour tree.isOpaqueAt ↔ id < tree.size ∧ tree.isVisited id = true := by
  rw [← hlinked.tourAt_root]
  constructor
  · revert hroot
    refine hlinked.of_children (motive := fun top => tree.isVisited top = true →
      (id, phase) ∈ tree.tourAt tree.isOpaqueAt top →
        id < tree.size ∧ tree.isVisited id = true) ?_ hlinked.root_mem
    intro top node hnode ih hvisited hcall
    rcases (hlinked.mem_tourAt hnode).mp hcall with rfl | ⟨hshown, child, hchild, hbelow⟩
    · exact ⟨lt_of_node? hnode, hvisited⟩
    · have hparent := hlinked.mem_children.mp hchild
      rw [isOpaqueAt_eq hnode] at hshown
      exact ih child hchild ((hlinked.isVisited_child_iff hparent hnode).mpr ⟨hshown, hvisited⟩)
        hbelow
  · rintro ⟨hid, hvisited⟩
    -- A node comes up because its parent does, which has a smaller number.
    induction id using Nat.strongRecOn generalizing phase with
    | ind id ih =>
        by_cases hne : id = rootId
        · obtain ⟨node, hnode⟩ := exists_node?_of_lt hlinked.root_mem
          exact (hlinked.mem_tourAt hnode).mpr (.inl hne)
        · obtain ⟨parent, hparent⟩ := hlinked.exists_parent id hid hne
          obtain ⟨node, hnode⟩ := hlinked.exists_node?_of_parentOf hparent
          obtain ⟨hshown, habove⟩ := (hlinked.isVisited_child_iff hparent hnode).mp hvisited
          have hcall : (parent, phase) ∈ tree.tourAt tree.isOpaqueAt rootId :=
            ih parent (hlinked.parent_lt id parent hparent) (lt_of_node? hnode) habove
          rw [← isOpaqueAt_eq hnode] at hshown
          exact hlinked.mem_tourAt_child hlinked.root_mem hcall hshown
            (hlinked.mem_children.mpr hparent)

end Linked

end Tree

end Document

namespace Render

open Document Output

namespace Renderer

variable (renderer : Renderer)

/-- What a call does by itself, as if nothing were below its node. -/
def single? (tree : Tree) (call : Call) : Option Rendering :=
  (tree.element? call.1).map fun element =>
    renderer.render (tree.place call.1) element call.2 []

def fault? (tree : Tree) (call : Call) : Option RenderError :=
  (renderer.single? tree call).bind (·.layout.failure)

/-- Whether entering the node ends with its children skipped. -/
def skips (tree : Tree) (id : NodeId) : Bool :=
  (renderer.single? tree (id, .enter)).any (·.status == .skipChildren)

/-- The trail of every node is that of entering it, of its children unless it is pruned there, and
of leaving it. -/
def Brackets (pruned : NodeId → Bool) (tree : Tree) : Prop :=
  ∀ id node, tree.node? id = some node →
    (renderer.layoutOf tree id).trail =
      (⟨[(id, .enter)], renderer.fault? tree (id, .enter)⟩ : Trail).followedBy
        ((if pruned id then .empty
          else (Layout.concat ((tree.children id).map (renderer.layoutOf tree))).trail).followedBy
            ⟨[(id, .leave)], renderer.fault? tree (id, .leave)⟩)

variable {renderer} {tree : Tree}

theorem single?_eq (hlinked : tree.Linked) {id : NodeId} {node : Node}
    (hnode : tree.node? id = some node) (phase : Phase) :
    renderer.single? tree (id, phase) =
      some (renderer.render (tree.place id) (.mk id node (tree.elements (tree.children id)))
        phase []) := by
  rw [single?, hlinked.element?_eq hnode, Option.map_some]

theorem fault?_eq (hlinked : tree.Linked) {id : NodeId} {node : Node}
    (hnode : tree.node? id = some node) (phase : Phase) :
    renderer.fault? tree (id, phase) =
      (renderer.render (tree.place id) (.mk id node (tree.elements (tree.children id)))
        phase []).layout.failure := by
  rw [fault?, single?_eq hlinked hnode, Option.bind_some]

theorem Brackets.trail_eq {pruned : NodeId → Bool} (hbrackets : renderer.Brackets pruned tree)
    (hlinked : tree.Linked) {id : NodeId} (hid : id < tree.size) :
    (renderer.layoutOf tree id).trail =
      .upTo (renderer.fault? tree) (tree.tourAt pruned id) := by
  refine hlinked.of_children (motive := fun id => (renderer.layoutOf tree id).trail =
    .upTo (renderer.fault? tree) (tree.tourAt pruned id)) ?_ hid
  intro id node hnode ih
  have hchildren : ∀ ids : List NodeId, (∀ child ∈ ids, child ∈ tree.children id) →
      (Layout.concat (ids.map (renderer.layoutOf tree))).trail =
        .upTo (renderer.fault? tree) (ids.flatMap (tree.tourAt pruned)) := by
    intro ids hids
    induction ids with
    | nil => rfl
    | cons child rest ihRest =>
        rw [List.map_cons, Layout.concat, Layout.trail_append, List.flatMap_cons,
          Trail.upTo_append, ih child (hids child (by simp)),
          ihRest fun other hother => hids other (by simp [hother])]
  rw [hbrackets id node hnode, hlinked.tourAt_eq hnode, Trail.upTo, Trail.upTo_append,
    Trail.upTo_singleton]
  split
  · rfl
  · rw [hchildren _ fun child hchild => hchild]

/-! The built-in functions. -/

section

variable (context : Context)

theorem failure_render_of_ne_emphasis (place : Place) {element : Element}
    (hkind : element.kind ≠ .emphasis) (phase : Phase) :
    ((standard context).render place element phase []).layout.failure = none := by
  cases phase with
  | leave => exact (isPlain_render_leave context place element [] hkind).failure_eq_none
  | enter =>
      have hnone := (around_enclosed context place element [] hkind).failure_eq
      rw [List.findSome?_nil, ite_self, around, Layout.failure_visit, Layout.failure_append,
        Layout.failure_append, Option.or_eq_none_iff, Option.or_eq_none_iff] at hnone
      exact hnone.1.1

theorem failure_marking_eq_some {options : Options} {place : Place} {level : Nat} {phase : Phase}
    {error : RenderError} (hfailure : (marking options place level phase).failure = some error) :
    options.supports level = false ∧ error = .unsupportedEmphasis level := by
  constructor
  · by_contra hsupported
    have hnone := failure_marking (by simpa using hsupported) place phase
    cases hnone.symm.trans hfailure
  · unfold marking at hfailure
    split at hfailure
    · cases hfailure
    · split at hfailure
      · cases hfailure
      · cases hfailure
        rfl

theorem exists_of_fault?_standard (hlinked : tree.Linked) {id : NodeId} {phase : Phase}
    {error : RenderError} (hid : id < tree.size) (hvisited : tree.isVisited id = true)
    (hfault : (standard context).fault? tree (id, phase) = some error) :
    ∃ level, context.options.Unsupported tree id level ∧ error = .unsupportedEmphasis level := by
  obtain ⟨node, hnode⟩ := Tree.exists_node?_of_lt hid
  rw [fault?_eq hlinked hnode] at hfault
  by_cases hkind : node.kind = .emphasis
  · obtain ⟨level, rfl⟩ := Node.exists_eq_emphasis hkind
    rw [render_emphasis] at hfault
    obtain ⟨hlevel, herror⟩ := failure_marking_eq_some hfault
    exact ⟨level, ⟨hvisited, hnode, hlevel⟩, herror⟩
  · have hkind : Element.kind (.mk id node (tree.elements (tree.children id))) ≠ .emphasis := hkind
    rw [failure_render_of_ne_emphasis context _ hkind] at hfault
    cases hfault

theorem isQuiet_marking (options : Options) (place : Place) (level : Nat) (phase : Phase) :
    (marking options place level phase).IsQuiet := by
  unfold marking
  split
  · trivial
  · split <;> trivial

theorem brackets_standard (hlinked : tree.Linked) :
    (standard context).Brackets tree.isOpaqueAt tree := by
  intro id node hnode
  rw [fault?_eq hlinked hnode, fault?_eq hlinked hnode, Tree.isOpaqueAt_eq hnode,
    (standard context).layoutOf_eq hlinked hnode]
  by_cases hkind : node.kind = .emphasis
  · obtain ⟨level, rfl⟩ := Node.exists_eq_emphasis hkind
    rw [around_emphasis, render_emphasis, render_emphasis, Layout.append_assoc,
      (isQuiet_marking ..).trail_visit_append, Layout.trail_append,
      (isQuiet_marking ..).trail_visit]
    rfl
  · have hkind : Element.kind (.mk id node (tree.elements (tree.children id))) ≠ .emphasis := hkind
    rw [failure_render_of_ne_emphasis context _ hkind,
      failure_render_of_ne_emphasis context _ hkind]
    obtain ⟨wrap, closing, hwrap, hclosing, hlayout⟩ := around_enclosed context (tree.place id)
      _ ((tree.children id).map ((standard context).layoutOf tree)) hkind
    rw [hlayout, Layout.trail_visit, Layout.trail_append, hwrap.trail_eq,
      hclosing.isQuiet.trail_visit, hclosing.failure_eq_none]
    congr 2
    exact apply_ite Layout.trail ..

end

end Renderer

/-! Functions that leave the walk alone. -/

/-- A function that does not lay out the children of its node, and visits no node where those it
delegates to visit none. -/
structure RenderFn.Stays (render : RenderFn) : Prop where
  parts : ∀ (visit : Visit) (parts : List Layout), render { visit with parts } = render visit
  quiet : ∀ visit : Visit, (∀ kind, (visit.inEffect kind).layout.IsQuiet) →
    (render visit).layout.IsQuiet

namespace Renderer

section

variable {renderer : Renderer} (hstays : ∀ kind, (renderer.overrides.renderFn kind).Stays)
include hstays

theorem call_parts (place : Place) (element : Element) (phase : Phase)
    (parts others : List Layout) (depth : Nat) :
    renderer.call place element phase parts depth =
      renderer.call place element phase others depth := by
  induction depth with
  | zero => rfl
  | succ depth ih =>
      funext kind
      rw [call, call, ih]
      exact ((hstays kind).parts _ others).symm

theorem isQuiet_call (place : Place) (element : Element) (phase : Phase) (parts : List Layout)
    (depth : Nat) (kind : Kind) :
    (renderer.call place element phase parts depth kind).layout.IsQuiet := by
  induction depth generalizing kind with
  | zero => trivial
  | succ depth ih => exact (hstays kind).quiet _ ih

theorem brackets_of_stays {tree : Tree} (hlinked : tree.Linked) :
    renderer.Brackets (renderer.skips tree) tree := by
  intro id node hnode
  have hquiet : ∀ phase parts, (renderer.render (tree.place id)
      (.mk id node (tree.elements (tree.children id))) phase parts).layout.IsQuiet :=
    fun phase parts => isQuiet_call hstays ..
  have hparts : ∀ phase parts, renderer.render (tree.place id)
      (.mk id node (tree.elements (tree.children id))) phase parts =
        renderer.render (tree.place id) (.mk id node (tree.elements (tree.children id)))
          phase [] := fun phase parts => congrFun (call_parts hstays ..) _
  have hskips : renderer.skips tree id = ((renderer.render (tree.place id)
      (.mk id node (tree.elements (tree.children id))) .enter []).status == .skipChildren) := by
    rw [skips, single?_eq hlinked hnode, Option.any_some]
  rw [fault?_eq hlinked hnode, fault?_eq hlinked hnode, hskips,
    renderer.layoutOf_eq hlinked hnode, around, hparts .enter, hparts .leave, Layout.append_assoc,
    (hquiet ..).trail_visit_append, Layout.trail_append, (hquiet ..).trail_visit]
  cases (renderer.render (tree.place id) (.mk id node (tree.elements (tree.children id)))
    .enter []).status <;> rfl

end

end Renderer

/-! Whole documents. -/

/-- The walk makes the calls of a tour, all of them or up to the first that fails; that failure is
then the failure of the document, named as such once. -/
structure Formatter.Follows (formatter : Formatter) (source : Source) (tree : Tree)
    (tour : List Call) : Prop where
  all : (∀ call ∈ tour, (formatter.renderer source).fault? tree call = none) →
    (∀ depth (stack : Stack Buffer depth),
      ((formatter.body source tree).traced stack).calls = tour) ∧
    ∀ metadata block, FrontMatter.encoded metadata = .ok block →
      ∃ output, formatter.render metadata source tree = .ok output
  cut : ∀ before call after error, tour = before ++ call :: after →
    (∀ earlier ∈ before, (formatter.renderer source).fault? tree earlier = none) →
    (formatter.renderer source).fault? tree call = some error →
    (∀ depth (stack : Stack Buffer depth),
      ((formatter.body source tree).traced stack).calls = before ++ [call]) ∧
    ∀ metadata block, FrontMatter.encoded metadata = .ok block →
      formatter.render metadata source tree = .error (match error with
        | .document cause => .document cause
        | other => .document other)

theorem RenderError.inDocument_eq (error : RenderError) :
    error.inDocument = match error with
      | .document cause => .document cause
      | other => .document other := by
  cases error <;> rfl

theorem Formatter.follows_of_brackets {formatter : Formatter} {source : Source} {tree : Tree}
    (hgrown : tree.Grown) {pruned : NodeId → Bool}
    (hbrackets : (formatter.renderer source).Brackets pruned tree) :
    formatter.Follows source tree (tree.root.tour pruned) := by
  have hlinked := hgrown.linked
  have htrail : (formatter.body source tree).trail =
      .upTo ((formatter.renderer source).fault? tree) (tree.root.tour pruned) := by
    rw [body_eq _ _ hgrown, hbrackets.trail_eq hlinked hlinked.root_mem, hlinked.tourAt_root]
  have hfailure := (formatter.body source tree).failure_trail
  constructor
  · intro hcalls
    rw [Trail.upTo_eq_all hcalls] at htrail
    rw [htrail] at hfailure
    refine ⟨fun depth stack => ?_, fun metadata block hblock => ?_⟩
    · rw [Layout.calls_traced, htrail]
    · cases hrender : formatter.render metadata source tree with
      | ok output => exact ⟨output, rfl⟩
      | error error =>
          rcases (render_eq_error_iff source formatter metadata tree error).mp hrender with
            ⟨cause, hencoded, -⟩ | ⟨other, cause, -, hcause, -⟩
          · cases hblock.symm.trans hencoded
          · cases hfailure.trans hcause
  · intro before call after error htour hbefore hcall
    rw [htour, Trail.upTo_eq_cut hbefore hcall] at htrail
    rw [htrail] at hfailure
    refine ⟨fun depth stack => ?_, fun metadata block hblock => ?_⟩
    · rw [Layout.calls_traced, htrail]
    · rw [← error.inDocument_eq, render_eq_error_iff]
      exact .inr ⟨block, error, hblock, hfailure.symm, rfl⟩

/-- Walking a tree makes the calls of its tour, each once, as far as none of them fails. The
built-in functions prune it below the nodes that stand for themselves, and fail only at an emphasis
that cannot be shown; functions that leave the walk alone prune it where they skip children. -/
theorem Formatter.walks_tour (source : Source) {tree : Tree} (hgrown : tree.Grown) :
    (∀ options formatCode,
      let formatter : Formatter := { options, formatCode }
      let tour := tree.root.tour tree.isOpaqueAt
      formatter.Follows source tree tour ∧ tour.Nodup ∧
        (∀ id phase, (id, phase) ∈ tour ↔ id < tree.size ∧ tree.isVisited id = true) ∧
        ∀ call ∈ tour, ∀ error, (formatter.renderer source).fault? tree call = some error →
          ∃ level, options.Unsupported tree call.1 level ∧
            error = .unsupportedEmphasis level) ∧
    ∀ formatter : Formatter, (∀ kind, (formatter.overrides.renderFn kind).Stays) →
      let tour := tree.root.tour ((formatter.renderer source).skips tree)
      formatter.Follows source tree tour ∧ tour.Nodup := by
  have hlinked := hgrown.linked
  refine ⟨?_, ?_⟩
  · intro options formatCode formatter tour
    let context : Context := { source, options, formatCode }
    have hroot : tree.isVisited Tree.rootId = true := by
      rw [Tree.isVisited, hgrown.place_root]
      rfl
    have hvisits : ∀ id phase, (id, phase) ∈ tour ↔
        id < tree.size ∧ tree.isVisited id = true :=
      fun id phase => hlinked.mem_tour_isOpaqueAt_iff hroot
    have hfollows : formatter.Follows source tree tour :=
      follows_of_brackets hgrown (Renderer.brackets_standard context hlinked)
    refine ⟨hfollows, hlinked.nodup_tour_root, hvisits, ?_⟩
    rintro ⟨id, phase⟩ hcall error hfault
    obtain ⟨hid, hvisited⟩ := (hvisits id phase).mp hcall
    exact Renderer.exists_of_fault?_standard context hlinked hid hvisited hfault
  · intro formatter hstays tour
    have hbrackets : (formatter.renderer source).Brackets
        ((formatter.renderer source).skips tree) tree := Renderer.brackets_of_stays hstays hlinked
    exact ⟨follows_of_brackets hgrown hbrackets, hlinked.nodup_tour_root⟩

/-- Skips what is below images, and fails when it leaves an emphasis of level four. -/
def failsLeaving : RenderFn := fun visit =>
  match visit.phase, visit.node with
  | .enter, .image _ _ _ => .skipChildren (.text "!")
  | .leave, .emphasis 4 => .descend (.fail (.document (.write .full)))
  | _, _ => .descend (.text "a")

theorem failsLeaving_stays : failsLeaving.Stays where
  parts _ _ := rfl
  quiet visit _ := by
    unfold failsLeaving
    split <;> trivial

theorem Formatter.hiddenLevel_toured :
    let formatter : Formatter := {}
    let failing : Formatter := { overrides := ⟨fun _ => some failsLeaving⟩ }
    hiddenLevel.Grown ∧ (∀ kind, (failing.overrides.renderFn kind).Stays) ∧
      ((formatter.body #[] hiddenLevel).traced Buffer.empty).calls =
        [(0, .enter), (1, .enter), (2, .enter), (2, .leave), (4, .enter), (5, .enter)] ∧
      ((failing.body #[] hiddenLevel).traced Buffer.empty).calls =
        [(0, .enter), (1, .enter), (2, .enter), (2, .leave), (4, .enter), (5, .enter),
          (5, .leave)] ∧
      failing.render none #[] hiddenLevel = .error (.document (.write .full)) := by
  intro formatter failing
  obtain ⟨hbuiltIn, htable⟩ := Formatter.walks_tour #[] hiddenLevel_grown
  have hstays : ∀ kind, (failing.overrides.renderFn kind).Stays := fun _ => failsLeaving_stays
  have hshown : List.findSome? ((formatter.renderer #[]).fault? hiddenLevel)
      [(0, .enter), (1, .enter), (2, .enter), (2, .leave), (4, .enter)] = none := by cbv
  have hwritten : List.findSome? ((failing.renderer #[]).fault? hiddenLevel)
      [(0, .enter), (1, .enter), (2, .enter), (2, .leave), (4, .enter), (5, .enter)] = none := by
    cbv
  have hentered := (hbuiltIn {} .none).1.cut _ (5, .enter)
    [(5, .leave), (6, .enter), (6, .leave), (4, .leave), (1, .leave), (0, .leave)]
    (.unsupportedEmphasis 4) (by cbv) (List.findSome?_eq_none_iff.mp hshown) (by cbv)
  have hleft := (htable failing hstays).1.cut _ (5, .leave)
    [(6, .enter), (6, .leave), (4, .leave), (1, .leave), (0, .leave)]
    (.document (.write .full)) (by cbv) (List.findSome?_eq_none_iff.mp hwritten) (by cbv)
  exact ⟨hiddenLevel_grown, hstays, hentered.1 0 Buffer.empty, hleft.1 0 Buffer.empty,
    hleft.2 none [] rfl⟩

end Render

end CanonicalMarkdown
