import CanonicalMarkdown.Proofs.Document.Moves
import CanonicalMarkdown.Proofs.Document.Position

namespace CanonicalMarkdown.Document

/-! Which nodes stand in which. -/

/-- Nodes that content can be added to while they are open. -/
def Kind.isOpen : Kind → Bool
  | .document | .textBlock => true
  | kind => kind.isContainer

def Kind.admits : (above below : Kind) → Bool
  | .codeSpan, below => below == .string
  | .listItem, below => below != .string
  | above, below => above.isOpen && below != .string && below != .textBlock

theorem Kind.admits_of_isOpen {above below : Kind} (habove : above.isOpen = true)
    (hstring : below ≠ .string) (htextBlock : below = .textBlock → above = .listItem) :
    above.admits below = true := by
  cases above <;> simp_all [Kind.admits, Kind.isOpen, Kind.isContainer]

/-- Nodes that need nothing of what is around or below them. -/
theorem Kind.ne_of_isChildless_or_isContainer {kind : Kind}
    (hkind : kind.isChildless = true ∨ kind.isContainer = true) :
    kind ≠ .codeSpan ∧ kind ≠ .string ∧ kind ≠ .textBlock := by
  cases kind <;> simp_all [Kind.isChildless, Kind.isContainer]

theorem Kind.admits_eq_false {above : Kind} (habove : above.isChildless = true) (below : Kind) :
    above.admits below = false := by
  cases above <;> simp_all [Kind.admits, Kind.isOpen, Kind.isContainer, Kind.isChildless]

theorem Kind.eq_codeSpan_of_admits {above : Kind} (hadmits : above.admits .string = true) :
    above = .codeSpan := by
  cases above <;> first | rfl | cases hadmits

theorem Kind.eq_listItem_of_admits {above : Kind} (hadmits : above.admits .textBlock = true) :
    above = .listItem := by
  cases above <;> first | rfl | cases hadmits

namespace Tree

theorem Linked.children_append {tree grown : Tree} {parent id : NodeId} {node : Node}
    (hlinked : tree.Linked) (happend : tree.append? parent node = some (id, grown))
    (other : NodeId) :
    grown.children other =
      if other = parent then tree.children parent ++ [id] else tree.children other := by
  rw [(hlinked.append happend).children_eq, offspring_append happend, hlinked.children_eq,
    hlinked.children_eq]

theorem Linked.children_set {tree : Tree} (hlinked : tree.Linked) (id : NodeId) (node : Node) :
    (tree.set id node).children = tree.children := by
  funext other
  rw [(hlinked.set id node).children_eq, offspring_set, hlinked.children_eq]

/-- Every node is of a kind that its parent admits. -/
def Stands (tree : Tree) : Prop :=
  ∀ id parent node above, tree.parentOf id = some parent → tree.node? id = some node →
    tree.node? parent = some above → above.kind.admits node.kind = true

/-- Every code span has one child, the code, which comes right after it. -/
def Spans (tree : Tree) : Prop :=
  ∀ id, tree.node? id = some .codeSpan →
    ∃ value, tree.children id = [id + 1] ∧ tree.node? (id + 1) = some (.string value)

section

variable {tree grown : Tree} {parent id : NodeId} {node above : Node}
  (hlinked : tree.Linked) (happend : tree.append? parent node = some (id, grown))
  (habove : tree.node? parent = some above)
include hlinked happend habove

theorem Stands.append (hstands : tree.Stands) (hadmits : above.kind.admits node.kind = true) :
    grown.Stands := by
  obtain ⟨hparent, hid, -⟩ := append?_eq_some happend
  intro other upper own outer hupper hown houter
  rw [parentOf_append happend] at hupper
  rw [node?_append happend] at hown houter
  have hlt : upper < id := by
    split at hupper
    · cases hupper
      exact hid ▸ hparent
    · have hother := lt_of_parentOf hupper
      exact hid ▸ Nat.lt_trans (hlinked.parent_lt other upper hupper) hother
  rw [if_neg (Nat.ne_of_lt hlt)] at houter
  split at hupper
  · next heq =>
      cases hupper
      rw [if_pos heq] at hown
      cases hown
      cases habove.symm.trans houter
      exact hadmits
  · next hne =>
      rw [if_neg hne] at hown
      exact hstands other upper own outer hupper hown houter

theorem Spans.append (hspans : tree.Spans) (hparent : above ≠ .codeSpan)
    (hnode : node ≠ .codeSpan) : grown.Spans := by
  obtain ⟨hlt, hid, -⟩ := append?_eq_some happend
  intro span hspan
  rw [node?_append happend] at hspan
  split at hspan
  · exact absurd (Option.some.inj hspan) hnode
  · obtain ⟨value, hchildren, hvalue⟩ := hspans span hspan
    have hne : span ≠ parent := by
      rintro rfl
      exact hparent (Option.some.inj (habove.symm.trans hspan))
    refine ⟨value, ?_, ?_⟩
    · rw [hlinked.children_append happend, if_neg hne, hchildren]
    · rw [node?_append happend, if_neg (hid ▸ Nat.ne_of_lt (lt_of_node? hvalue)), hvalue]

end

/-- A code span is complete once its code is appended to it. -/
theorem Spans.appendCode {tree middle grown : Tree} {parent span id : NodeId} {above : Node}
    {code : String} (hspans : tree.Spans) (hlinked : tree.Linked)
    (hspan : tree.append? parent .codeSpan = some (span, middle))
    (hcode : middle.append? span (.string code) = some (id, grown))
    (habove : tree.node? parent = some above) (hparent : above ≠ .codeSpan) : grown.Spans := by
  obtain ⟨hlt, hnew, -⟩ := append?_eq_some hspan
  obtain ⟨hspanLt, hid, -⟩ := append?_eq_some hcode
  have hmiddle := hlinked.append hspan
  have hnone : middle.children span = [] := by
    rw [hlinked.children_append hspan, if_neg (hnew ▸ Nat.ne_of_gt hlt), hlinked.children_eq]
    exact hlinked.offspring_eq_nil_of_size_le (Nat.le_of_eq hnew.symm)
  have hkept : ∀ other own, tree.node? other = some own → grown.node? other = some own := by
    intro other own hown
    have hother := lt_of_node? hown
    have hbefore : other < middle.size := by
      rw [size_append hspan]
      exact Nat.lt_succ_of_lt hother
    rw [node?_append hcode, if_neg (hid ▸ Nat.ne_of_lt hbefore), node?_append hspan,
      if_neg (hnew ▸ Nat.ne_of_lt hother), hown]
  intro other hother
  by_cases hown : other = span
  · have hnext : span + 1 = id := by rw [hid, size_append hspan, hnew]
    refine ⟨code, ?_, ?_⟩
    · rw [hown, hmiddle.children_append hcode, if_pos rfl, hnone, List.nil_append, hnext]
    · rw [hown, hnext, node?_append hcode, if_pos rfl]
  · rw [node?_append hcode] at hother
    split at hother
    · cases hother
    · rw [node?_append hspan, if_neg hown] at hother
      obtain ⟨value, hchildren, hvalue⟩ := hspans other hother
      have hne : other ≠ parent := by
        rintro rfl
        exact hparent (Option.some.inj (habove.symm.trans hother))
      refine ⟨value, ?_, hkept (other + 1) _ hvalue⟩
      rw [hmiddle.children_append hcode, if_neg hown, hlinked.children_append hspan, if_neg hne,
        hchildren]

section

variable {tree : Tree} {id : NodeId} {node other : Node} (hnode : tree.node? id = some node)
  (hkind : other.kind = node.kind)
include hnode hkind

/-- Replacing a node by another of its kind changes no kind. -/
theorem kind_set {own : Node} {child : NodeId}
    (hown : (tree.set id other).node? child = some own) :
    ∃ before, tree.node? child = some before ∧ own.kind = before.kind := by
  rw [node?_set] at hown
  obtain ⟨before, hbefore, rfl⟩ := Option.map_eq_some_iff.mp hown
  refine ⟨before, hbefore, ?_⟩
  split
  · next heq =>
      cases (heq ▸ hbefore).symm.trans hnode
      exact hkind
  · rfl

theorem Stands.set (hstands : tree.Stands) : (tree.set id other).Stands := by
  intro child parent own above hparent hown habove
  obtain ⟨own', hown', hownKind⟩ := kind_set hnode hkind hown
  obtain ⟨above', habove', haboveKind⟩ := kind_set hnode hkind habove
  rw [parentOf_set] at hparent
  rw [hownKind, haboveKind]
  exact hstands child parent own' above' hparent hown' habove'

theorem Spans.set (hlinked : tree.Linked) (hspans : tree.Spans) (hstring : node.kind ≠ .string) :
    (tree.set id other).Spans := by
  have hkept : ∀ child own, tree.node? child = some own → own.kind ≠ node.kind →
      (tree.set id other).node? child = some own := by
    intro child own hown hne
    have hchild : child ≠ id := by
      rintro rfl
      cases hown.symm.trans hnode
      exact hne rfl
    rw [node?_set, hown, Option.map_some, if_neg hchild]
  intro span hcode
  obtain ⟨before, hbefore, hbeforeKind⟩ := kind_set hnode hkind hcode
  have hcodeSpan : before = .codeSpan := by
    cases before <;> first | rfl | cases hbeforeKind
  obtain ⟨value, hchildren, hvalue⟩ := hspans span (hcodeSpan ▸ hbefore)
  refine ⟨value, ?_, hkept (span + 1) _ hvalue hstring.symm⟩
  rw [hlinked.children_set, hchildren]

end

end Tree

/-! What stays so whatever happens to a stage. -/

/-- The node of a frame is one that the frame stands for. -/
def Frame.Opens (node : Node) : Frame → Prop
  | .node _ => node.kind.isContainer = true
  | .textBlock _ => node = .textBlock
  | _ => False

namespace Stage

structure Sound (stage : Stage) : Prop where
  grown : stage.tree.Grown
  root : stage.tree.node? Tree.rootId = some .document
  stands : stage.tree.Stands
  spans : stage.tree.Spans
  frames : ∀ frame ∈ stage.frames, ∀ id, frame.id? = some id →
    ∃ node, stage.tree.node? id = some node ∧ frame.Opens node

namespace Sound

variable {stage : Stage} (hsound : stage.Sound)
include hsound

theorem parent_isOpen :
    ∃ node, stage.tree.node? stage.parent = some node ∧ node.kind.isOpen = true := by
  unfold parent
  cases hfound : stage.frames.findSome? Frame.id? with
  | none => exact ⟨.document, hsound.root, rfl⟩
  | some id =>
      obtain ⟨frame, hframe, hid⟩ := List.exists_of_findSome?_eq_some hfound
      obtain ⟨node, hnode, hopens⟩ := hsound.frames frame hframe id hid
      refine ⟨node, hnode, ?_⟩
      cases frame with
      | node => cases node <;> first | rfl | cases hopens
      | textBlock =>
          cases hopens
          rfl
      | _ => cases hid

theorem parent_lt : stage.parent < stage.tree.size := by
  obtain ⟨node, hnode, -⟩ := hsound.parent_isOpen
  exact Tree.lt_of_node? hnode

theorem append?_eq (node : Node) :
    stage.tree.append? stage.parent node = some (stage.tree.size, (stage.added node).tree) :=
  Tree.append?_of_lt hsound.parent_lt node

theorem node?_added {id : NodeId} {own : Node} (hown : stage.tree.node? id = some own)
    (node : Node) : (stage.added node).tree.node? id = some own := by
  rw [Tree.node?_append (hsound.append?_eq node), if_neg (Nat.ne_of_lt (Tree.lt_of_node? hown)),
    hown]

theorem node?_added_size (node : Node) :
    (stage.added node).tree.node? stage.tree.size = some node := by
  rw [Tree.node?_append (hsound.append?_eq node), if_pos rfl]

/-- A new node stands well, as long as it belongs to no code span and is no stray text block. -/
theorem added {node : Node} (hspan : node.kind ≠ .codeSpan) (hstring : node.kind ≠ .string)
    (htextBlock : node.kind = .textBlock → stage.tree.node? stage.parent = some .listItem) :
    (stage.added node).Sound := by
  have happend := hsound.append?_eq node
  have hlinked := hsound.grown.linked
  obtain ⟨above, habove, hopen⟩ := hsound.parent_isOpen
  have hne : above ≠ .codeSpan := by
    rintro rfl
    cases hopen
  have hnode : node ≠ .codeSpan := fun heq => hspan (congrArg Node.kind heq)
  have hadmits : above.kind.admits node.kind = true := by
    apply Kind.admits_of_isOpen hopen hstring
    intro hblock
    cases habove.symm.trans (htextBlock hblock)
    rfl
  constructor
  · exact .append hsound.grown happend
  · exact hsound.node?_added hsound.root node
  · exact hsound.stands.append hlinked happend habove hadmits
  · exact hsound.spans.append hlinked happend habove hne hnode
  · intro frame hframe id hid
    obtain ⟨own, hown, hopens⟩ := hsound.frames frame hframe id hid
    exact ⟨own, hsound.node?_added hown node, hopens⟩

theorem added_of_kind {node : Node}
    (hkind : node.kind.isChildless = true ∨ node.kind.isContainer = true) :
    (stage.added node).Sound := by
  obtain ⟨hspan, hstring, htextBlock⟩ := Kind.ne_of_isChildless_or_isContainer hkind
  exact hsound.added hspan hstring fun hblock => absurd hblock htextBlock

theorem pushed {frame : Frame} (hframe : ∀ id, frame.id? = some id →
      ∃ node, stage.tree.node? id = some node ∧ frame.Opens node) :
    (stage.pushed frame).Sound :=
  { hsound with
    frames := by
      intro other hother
      rcases List.mem_cons.mp hother with rfl | hother
      · exact hframe
      · exact hsound.frames other hother }

theorem addedCode (code : String) :
    Sound { stage with
      tree := (stage.added .codeSpan).tree.appended stage.tree.size (.string code) } := by
  have happend := hsound.append?_eq .codeSpan
  have hlinked := hsound.grown.linked
  have hmiddle := hlinked.append happend
  have hspan := hsound.node?_added_size .codeSpan
  have hstring := Tree.append?_of_lt (Tree.lt_of_node? hspan) (.string code)
  have hgrown : ((stage.added .codeSpan).tree.appended stage.tree.size (.string code)).Grown :=
    .append (.append hsound.grown happend) hstring
  have hkept : ∀ id own, stage.tree.node? id = some own →
      ((stage.added .codeSpan).tree.appended stage.tree.size (.string code)).node? id =
        some own := by
    intro id own hown
    have hadded := hsound.node?_added hown .codeSpan
    rw [Tree.node?_append hstring, if_neg (Nat.ne_of_lt (Tree.lt_of_node? hadded)), hadded]
  obtain ⟨above, habove, hopen⟩ := hsound.parent_isOpen
  have hadmits : above.kind.admits .codeSpan = true :=
    Kind.admits_of_isOpen hopen (by decide) (by simp)
  have hne : above ≠ .codeSpan := by
    rintro rfl
    cases hopen
  constructor
  · exact hgrown
  · exact hkept _ _ hsound.root
  · exact (hsound.stands.append hlinked happend habove hadmits).append hmiddle hstring hspan rfl
  · exact hsound.spans.appendCode hlinked happend hstring habove hne
  · intro frame hframe id hid
    obtain ⟨own, hown, hopens⟩ := hsound.frames frame hframe id hid
    exact ⟨own, hkept id own hown, hopens⟩

end Sound

theorem broken?_eq_some {hard : Bool} {node broken : Node}
    (hbroken : Builder.broken? hard node = some broken) :
    ∃ segment soft hardBefore, node = .text segment false soft hardBefore ∧
      broken = .text segment false (soft || !hard) (hardBefore || hard) := by
  unfold Builder.broken? at hbroken
  split at hbroken
  · cases hbroken
    exact ⟨_, _, _, rfl, rfl⟩
  · cases hbroken

theorem Sound.brokenLine {stage : Stage} (hsound : stage.Sound) {id : NodeId} {node broken : Node}
    {hard : Bool} (hnode : stage.tree.node? id = some node)
    (hbroken : Builder.broken? hard node = some broken) :
    Sound { stage with tree := stage.tree.set id broken } := by
  obtain ⟨segment, soft, hardBefore, rfl, rfl⟩ := broken?_eq_some hbroken
  have hkept : ∀ other own, stage.tree.node? other = some own → own.kind ≠ .text →
      (stage.tree.set id (.text segment false (soft || !hard) (hardBefore || hard))).node? other =
        some own := by
    intro other own hown hkind
    have hne : other ≠ id := by
      rintro rfl
      cases hown.symm.trans hnode
      exact hkind rfl
    rw [Tree.node?_set, hown, Option.map_some, if_neg hne]
  constructor
  · exact .set id _ hsound.grown
  · exact hkept _ _ hsound.root (by decide)
  · exact hsound.stands.set hnode rfl
  · exact hsound.spans.set hnode rfl hsound.grown.linked (by simp [Node.kind])
  · intro frame hframe other hother
    obtain ⟨own, hown, hopens⟩ := hsound.frames frame hframe other hother
    refine ⟨own, hkept other own hown ?_, hopens⟩
    intro hkind
    cases frame with
    | node => simp [Frame.Opens, hkind, Kind.isContainer] at hopens
    | textBlock =>
        cases hopens
        cases hkind
    | _ => cases hother

theorem Move.sound {made : List Node} {start finish : Stage} (hmove : Move made start finish)
    (hsound : start.Sound) : finish.Sound := by
  cases hmove with
  | push hid _ =>
      apply hsound.pushed
      intro id hsome
      cases hid.symm.trans hsome
  | pop => exact { hsound with frames := fun frame hframe => hsound.frames frame (.tail _ hframe) }
  | add hkind => exact hsound.added_of_kind (.inl hkind)
  | addCode code => exact hsound.addedCode code
  | @openNode _ node hkind _ =>
      apply (hsound.added_of_kind (.inr hkind)).pushed
      rintro id ⟨rfl⟩
      exact ⟨node, hsound.node?_added_size node, hkind⟩
  | openTextBlock hitem _ =>
      have hadded : (start.added .textBlock).Sound :=
        hsound.added (by decide) (by decide) fun _ => hitem
      apply hadded.pushed
      rintro id ⟨rfl⟩
      exact ⟨.textBlock, hsound.node?_added_size .textBlock, rfl⟩
  | breakLine hnode hbroken => exact hsound.brokenLine hnode hbroken

end Stage

end CanonicalMarkdown.Document
