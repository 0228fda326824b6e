import CanonicalMarkdown.Proofs.Render.Trace

namespace CanonicalMarkdown

open Document Output

/-! Trees in which nothing but inline nodes is below an inline node. -/

namespace Document.Tree

def InlineBelow (tree : Tree) : Prop :=
  ∀ parent child, tree.parentOf child = some parent →
    (tree.node? parent).any Node.isInline = true → (tree.node? child).any Node.isInline = true

theorem inlineBelow_of_forall {tree : Tree}
    (hall : ∀ child < tree.size, ∀ parent ∈ tree.parentOf child,
      (tree.node? parent).any Node.isInline = true →
        (tree.node? child).any Node.isInline = true) : tree.InlineBelow := by
  intro parent child hparent
  exact hall child (lt_of_parentOf hparent) parent hparent

namespace Linked

variable {tree : Tree} (hlinked : tree.Linked) (hinline : tree.InlineBelow)
include hlinked hinline

theorem inlineAncestors_block {id : NodeId} {node : Node} (hnode : tree.node? id = some node)
    (hblock : node.isInline = false) : (tree.place id).inlineAncestors = [] := by
  cases hparent : tree.parentOf id with
  | none =>
      have hnone : tree.ancestors id = [] := by
        rw [ancestors, hparent]
        cases tree.size <;> rfl
      rw [Place.inlineAncestors, place, hnone]
      rfl
  | some parent =>
      obtain ⟨outer, houter⟩ := hlinked.exists_node?_of_parentOf hparent
      have houtside : outer.isInline = false := by
        by_contra hinner
        have hbelow := hinline parent id hparent (by simpa [houter] using hinner)
        simp [hnode, hblock] at hbelow
      rw [Place.inlineAncestors, hlinked.ancestors_place_child hparent houter,
        List.takeWhile_cons_of_neg (by simp [houtside])]

theorem mem_ancestors_iff {id : NodeId} (hid : id < tree.size) (level : Nat) :
    Node.emphasis level ∈ (tree.place id).ancestors ↔
      (tree.place id).inlineAncestors.any (·.isEmphasis level) = true := by
  refine hlinked.of_root_of_parent (motive := fun id =>
    Node.emphasis level ∈ (tree.place id).ancestors ↔
      (tree.place id).inlineAncestors.any (·.isEmphasis level) = true) ?_ ?_ hid
  · rw [Place.inlineAncestors, place, hlinked.ancestors_root]
    simp [nodes]
  · intro id parent hparent ih
    obtain ⟨outer, houter⟩ := hlinked.exists_node?_of_parentOf hparent
    rw [Place.inlineAncestors, hlinked.ancestors_place_child hparent houter, List.mem_cons, ih]
    cases hinner : outer.isInline with
    | true =>
        rw [List.takeWhile_cons_of_pos hinner, List.any_cons, Bool.or_eq_true, Node.isEmphasis_iff,
          eq_comm]
        rfl
    | false =>
        rw [hlinked.inlineAncestors_block hinline houter hinner,
          List.takeWhile_cons_of_neg (by simp [hinner])]
        constructor
        · rintro (rfl | hfalse)
          · cases hinner
          · cases hfalse
        · intro hfalse
          cases hfalse

theorem not_mem_of_block {id : NodeId} {node : Node} (hnode : tree.node? id = some node)
    (hblock : node.isInline = false) (level : Nat) :
    Node.emphasis level ∉ node :: (tree.place id).ancestors := by
  rw [List.mem_cons, hlinked.mem_ancestors_iff hinline (lt_of_node? hnode),
    hlinked.inlineAncestors_block hinline hnode hblock]
  rintro (rfl | hfalse)
  · cases hblock
  · cases hfalse

end Linked

end Document.Tree

namespace Render

/-! Delimiters as brackets. Entering opens a level, and leaving closes the one opened last. -/

def Turn.openAfter (opened : List Nat) (turn : Turn) : Option (List Nat) :=
  match turn.delimiter, turn.phase with
  | none, _ => some opened
  | some level, .enter => some (level :: opened)
  | some level, .leave => if opened.head? = some level then some opened.tail else none

def openAfter (opened : List Nat) (turns : List Turn) : Option (List Nat) :=
  turns.foldlM Turn.openAfter opened

/-- The items lead from `start` to `stop`, and `Holds` of the state before each. -/
inductive Runs {σ τ : Type} (step : σ → τ → Option σ) (Holds : σ → τ → Prop) :
    σ → List τ → σ → Prop
  | done (state : σ) : Runs step Holds state [] state
  | turn {state next stop : σ} {item : τ} {rest : List τ} :
      Holds state item → step state item = some next → Runs step Holds next rest stop →
        Runs step Holds state (item :: rest) stop

namespace Runs

section

variable {σ τ : Type} {step : σ → τ → Option σ} {Holds : σ → τ → Prop} {start middle stop : σ}

theorem append {first second : List τ} (hfirst : Runs step Holds start first middle)
    (hsecond : Runs step Holds middle second stop) :
    Runs step Holds start (first ++ second) stop := by
  induction hfirst with
  | done state => exact hsecond
  | turn hholds hnext _ ih => exact .turn hholds hnext (ih hsecond)

theorem of_append {first second : List τ} (hruns : Runs step Holds start (first ++ second) stop) :
    ∃ middle, Runs step Holds start first middle ∧ Runs step Holds middle second stop := by
  induction first generalizing start with
  | nil => exact ⟨start, .done start, hruns⟩
  | cons item first ih =>
      cases hruns with
      | turn hholds hnext hrest =>
          obtain ⟨middle, hfirst, hsecond⟩ := ih hrest
          exact ⟨middle, .turn hholds hnext hfirst, hsecond⟩

theorem foldlM_eq {items : List τ} (hruns : Runs step Holds start items stop) :
    items.foldlM step start = some stop := by
  induction hruns with
  | done state => rfl
  | turn _ hnext _ ih =>
      rw [List.foldlM_cons, hnext]
      exact ih

theorem of_split {before after : List τ} {item : τ}
    (hruns : Runs step Holds start (before ++ item :: after) stop) :
    ∃ state, before.foldlM step start = some state ∧ Holds state item := by
  obtain ⟨middle, hbefore, hrest⟩ := hruns.of_append
  cases hrest with
  | turn hholds _ _ => exact ⟨middle, hbefore.foldlM_eq, hholds⟩

end

theorem openAfter_eq {Holds : List Nat → Turn → Prop} {start stop : List Nat} {turns : List Turn}
    (hruns : Runs Turn.openAfter Holds start turns stop) : openAfter start turns = some stop :=
  hruns.foldlM_eq

end Runs

/-! The levels in effect at a node are those of the emphasis around it. They are open while it is
rendered, and from one sibling to the next the level that both have stays open as well. -/

/-- The open levels are those of the emphasis around the node that takes its turn, its own included
when it leaves. An emphasis that enters may find its own level open or not. -/
structure Faithful (tree : Tree) (opened : List Nat) (turn : Turn) : Prop where
  nodup : opened.Nodup
  exists_node : ∃ node, tree.node? turn.node = some node ∧
    ((turn.phase = .enter → node.emphasisLevel? = none) →
      ∀ level, level ∈ opened ↔ .emphasis level ∈ node :: (tree.place turn.node).ancestors)

structure InEffect (tree : Tree) (id : NodeId) (base : List Nat) : Prop where
  nodup : base.Nodup
  mem_iff : ∀ level, level ∈ base ↔ .emphasis level ∈ (tree.place id).ancestors

/-- The levels in effect below a node. -/
def inside (base : List Nat) (node : Node) : List Nat :=
  match node.emphasisLevel? with
  | some level => base.insert level
  | none => base

/-- The levels that are open between two neighbours. -/
def carried (base : List Nat) (left right : Option Node) : List Nat :=
  match left.bind Node.emphasisLevel? with
  | some level => if right.any (·.isEmphasis level) then base.insert level else base
  | none => base

theorem carried_none (base : List Nat) (left : Option Node) : carried base left none = base := by
  unfold carried
  split <;> rfl

theorem inside_of_ne_emphasis {node : Node} (hlevel : node.emphasisLevel? = none)
    (base : List Nat) : inside base node = base := by
  rw [inside, hlevel]

theorem carried_left_of_ne_emphasis {node : Node} (hlevel : node.emphasisLevel? = none)
    (base : List Nat) (right : Option Node) : carried base (some node) right = base := by
  rw [carried, Option.bind_some, hlevel]

theorem carried_right_of_ne_emphasis {node : Node} (hlevel : node.emphasisLevel? = none)
    (base : List Nat) (left : Option Node) : carried base left (some node) = base := by
  have hnone : ∀ level, node.isEmphasis level = false := by
    intro level
    cases node with
    | emphasis own => cases hlevel
    | _ => rfl
  unfold carried
  split
  · simp [hnone]
  · rfl

theorem carried_left_emphasis (base : List Nat) (level : Nat) (right : Option Node) :
    carried base (some (.emphasis level)) right =
      if right.any (·.isEmphasis level) then base.insert level else base := rfl

theorem carried_right_emphasis (base : List Nat) (level : Nat) (left : Option Node) :
    carried base left (some (.emphasis level)) =
      if left.any (·.isEmphasis level) then base.insert level else base := by
  cases left with
  | none => rfl
  | some node =>
      cases node with
      | emphasis own =>
          by_cases hown : own = level
          · subst hown
            simp [carried, Node.emphasisLevel?, Node.isEmphasis]
          · simp [carried, Node.emphasisLevel?, Node.isEmphasis, hown, Ne.symm hown]
      | _ => rfl

theorem inEffect_root {tree : Tree} (hgrown : tree.Grown) : InEffect tree Tree.rootId [] := by
  refine ⟨List.nodup_nil, ?_⟩
  simp [hgrown.place_root, Place.root]

namespace InEffect

variable {tree : Tree} {id : NodeId} {base : List Nat} (heffect : InEffect tree id base)
  {node : Node}
include heffect

theorem mem_inside_iff (level : Nat) :
    level ∈ inside base node ↔ .emphasis level ∈ node :: (tree.place id).ancestors := by
  rw [List.mem_cons, ← heffect.mem_iff]
  cases node with
  | emphasis own =>
      change level ∈ base.insert own ↔ _
      rw [List.mem_insert_iff, Node.emphasis.injEq]
  | _ => simp [inside, Node.emphasisLevel?]

theorem nodup_inside : (inside base node).Nodup := by
  unfold inside
  split
  · exact heffect.nodup.insert
  · exact heffect.nodup

theorem nodup_carried (left right : Option Node) : (carried base left right).Nodup := by
  unfold carried
  split
  · split
    · exact heffect.nodup.insert
    · exact heffect.nodup
  · exact heffect.nodup

theorem child (hlinked : tree.Linked) (hnode : tree.node? id = some node) {child : NodeId}
    (hparent : tree.parentOf child = some id) : InEffect tree child (inside base node) where
  nodup := heffect.nodup_inside
  mem_iff level := by
    rw [heffect.mem_inside_iff, hlinked.ancestors_place_child hparent hnode]

section

variable (hlinked : tree.Linked) (hinline : tree.InlineBelow) (hnode : tree.node? id = some node)
include hlinked hinline hnode

theorem any_inlineAncestors (level : Nat) :
    (tree.place id).inlineAncestors.any (·.isEmphasis level) = decide (level ∈ base) := by
  rw [Bool.eq_iff_iff, decide_eq_true_iff, heffect.mem_iff,
    hlinked.mem_ancestors_iff hinline (Tree.lt_of_node? hnode)]

theorem enter :
    Turn.openAfter (carried base (tree.place id).previous.head? (some node))
        ⟨id, .enter, dueDelimiter tree id .enter⟩ =
      some (inside base node) := by
  cases hlevel : node.emphasisLevel? with
  | none =>
      rw [dueDelimiter_eq_none hnode hlevel, inside_of_ne_emphasis hlevel,
        carried_right_of_ne_emphasis hlevel]
      rfl
  | some level =>
      obtain rfl := Node.eq_emphasis hlevel
      have habove := heffect.any_inlineAncestors hlinked hinline hnode level
      rw [dueDelimiter_emphasis hnode, Inline.isMerged.eq_def, habove, carried_right_emphasis]
      change _ = some (base.insert level)
      -- Only where neither the neighbour nor a node around it has the level is it opened here.
      by_cases hprevious : (tree.place id).previous.head?.any (·.isEmphasis level) = true
      · simp [hprevious, Turn.openAfter]
      · by_cases hbase : level ∈ base <;> simp [hprevious, hbase, Turn.openAfter]

theorem leave :
    Turn.openAfter (inside base node) ⟨id, .leave, dueDelimiter tree id .leave⟩ =
      some (carried base (some node) (tree.place id).next) := by
  cases hlevel : node.emphasisLevel? with
  | none =>
      rw [dueDelimiter_eq_none hnode hlevel, inside_of_ne_emphasis hlevel,
        carried_left_of_ne_emphasis hlevel]
      rfl
  | some level =>
      obtain rfl := Node.eq_emphasis hlevel
      have habove := heffect.any_inlineAncestors hlinked hinline hnode level
      rw [dueDelimiter_emphasis hnode, Inline.isMerged.eq_def, habove, carried_left_emphasis]
      change Turn.openAfter (base.insert level) _ = _
      -- The level was put on top exactly when it was not in effect, so it is the one to close.
      by_cases hnext : (tree.place id).next.any (·.isEmphasis level) = true
      · simp [hnext, Turn.openAfter]
      · by_cases hbase : level ∈ base <;> simp [hnext, hbase, Turn.openAfter]

end

section

variable (hnode : tree.node? id = some node)
include hnode

theorem faithful_enter :
    Faithful tree (carried base (tree.place id).previous.head? (some node))
      ⟨id, .enter, dueDelimiter tree id .enter⟩ where
  nodup := heffect.nodup_carried _ _
  exists_node := by
    refine ⟨node, hnode, ?_⟩
    intro hlevel level
    rw [carried_right_of_ne_emphasis (hlevel rfl), ← heffect.mem_inside_iff,
      inside_of_ne_emphasis (hlevel rfl)]

theorem faithful_leave :
    Faithful tree (inside base node) ⟨id, .leave, dueDelimiter tree id .leave⟩ where
  nodup := heffect.nodup_inside
  exists_node := ⟨node, hnode, fun _ level => heffect.mem_inside_iff level⟩

end

end InEffect

/-- Siblings in turn lead from one list of open levels to another, if each of them leads from what
is carried over to it to what it leaves for the next. -/
theorem lead_siblings {tree : Tree} (hlinked : tree.Linked) {parent : NodeId} {node : Node}
    {base : List Nat} {left right : List NodeId}
    (Leads : List Nat → List NodeId → List Nat → Prop)
    (hnil : ∀ opened, Leads opened [] opened)
    (hcons : ∀ start middle stop child rest, Leads start [child] middle →
      Leads middle rest stop → Leads start (child :: rest) stop)
    (hnode : tree.node? parent = some node)
    (hchildren : ∀ child ∈ tree.children parent, ∀ own, tree.node? child = some own →
      Leads (carried base (tree.place child).previous.head? (some own)) [child]
        (carried base (some own) (tree.place child).next))
    (hsplit : tree.children parent = left ++ right) :
    Leads (carried base (tree.nodes left).reverse.head? (right.head?.bind tree.node?)) right
      base := by
  -- `left` are the siblings already passed; the last of them decides what is carried over.
  induction right generalizing left with
  | nil =>
      rw [List.head?_nil, Option.bind_none, carried_none]
      exact hnil base
  | cons child right ih =>
      have hchild : child ∈ tree.children parent := by simp [hsplit]
      obtain ⟨own, hown⟩ := hlinked.exists_node?_of_mem_children hchild
      have hplace := hlinked.place_of_split hsplit hnode
      have hfirst := hchildren child hchild own hown
      have hpassed : tree.children parent = (left ++ [child]) ++ right := by simp [hsplit]
      have hrest := ih hpassed
      have hlast : (tree.nodes (left ++ [child])).reverse.head? = some own := by
        simp [Tree.nodes, hown]
      rw [hplace] at hfirst
      rw [hlast] at hrest
      rw [List.head?_cons, Option.bind_some, hown]
      exact hcons _ _ _ child right hfirst hrest

namespace Renderer

variable {context : Context} {tree : Tree} (htext : context.options.terminalStyling = false)
  (hlinked : tree.Linked) (hinline : tree.InlineBelow)
  (hlevels : ∀ id level, ¬context.options.Unsupported tree id level)

/-- From what is carried over to the node to what it leaves for the next. -/
def RunsAt (context : Context) (tree : Tree) (id : NodeId) : Prop :=
  ∀ node base, tree.node? id = some node → InEffect tree id base →
    Runs Turn.openAfter (Faithful tree) (carried base (tree.place id).previous.head? (some node))
      (turnsAt context tree id) (carried base (some node) (tree.place id).next)

include htext hlinked hinline hlevels

theorem runsAt {id : NodeId} (hid : id < tree.size) (hvisited : tree.isVisited id = true) :
    RunsAt context tree id := by
  refine hlinked.of_visited_children (motive := RunsAt context tree) ?_ hid hvisited
  intro id node hnode hvisited ih own base hown heffect
  cases hnode.symm.trans hown
  have hinner : Runs Turn.openAfter (Faithful tree) (inside base node)
      (turnsBelow context tree id node) (inside base node) := by
    unfold turnsBelow
    split
    · exact .done _
    · next hisOpaque =>
        have hall : tree.children id = [] ++ tree.children id := rfl
        refine lead_siblings hlinked (fun start ids stop =>
          Runs Turn.openAfter (Faithful tree) start (ids.flatMap (turnsAt context tree)) stop)
          .done ?_ hnode ?_ hall
        · intro start middle stop child rest hfirst hrest
          rw [List.flatMap_singleton] at hfirst
          rw [List.flatMap_cons]
          exact hfirst.append hrest
        · intro child hchild own hown
          rw [List.flatMap_singleton]
          refine ih (by simpa using hisOpaque) child hchild own _ hown ?_
          exact heffect.child hlinked hnode (hlinked.mem_children.mp hchild)
  rw [turnsAt_eq htext hlinked hlevels hvisited hnode]
  refine .turn (heffect.faithful_enter hnode) (heffect.enter hlinked hinline hnode) ?_
  refine hinner.append ?_
  exact .turn (heffect.faithful_leave hnode) (heffect.leave hlinked hinline hnode) (.done _)

/-! Neighbours of the same level. -/

omit hinline in
theorem siblings_infix_turnsAt {id : NodeId} {node : Node} {before siblings after : List NodeId}
    (hnode : tree.node? id = some node) (hvisited : tree.isVisited id = true)
    (hisOpaque : node.kind.isOpaque = false)
    (hsplit : tree.children id = before ++ siblings ++ after) :
    siblings.flatMap (turnsAt context tree) <:+: turnsAt context tree id := by
  rw [turnsAt_eq htext hlinked hlevels hvisited hnode, turnsBelow, hisOpaque, hsplit,
    List.flatMap_append, List.flatMap_append]
  exact ⟨⟨id, .enter, dueDelimiter tree id .enter⟩ :: before.flatMap (turnsAt context tree),
    after.flatMap (turnsAt context tree) ++ [⟨id, .leave, dueDelimiter tree id .leave⟩], by simp⟩

omit hinline in
theorem turnsAt_infix_root {id : NodeId} (hid : id < tree.size)
    (hvisited : tree.isVisited id = true) :
    turnsAt context tree id <:+: turnsAt context tree Tree.rootId := by
  revert hvisited
  refine hlinked.of_root_of_parent (motive := fun id => tree.isVisited id = true →
    turnsAt context tree id <:+: turnsAt context tree Tree.rootId) ?_ ?_ hid
  · intro _
    exact List.infix_rfl
  · intro id parent hparent ih hvisited
    obtain ⟨outer, houter⟩ := hlinked.exists_node?_of_parentOf hparent
    obtain ⟨hisOpaque, habove⟩ := (hlinked.isVisited_child_iff hparent houter).mp hvisited
    obtain ⟨left, right, hsplit⟩ := List.append_of_mem (hlinked.mem_children.mpr hparent)
    have hpart : tree.children parent = left ++ [id] ++ right := by simp [hsplit]
    have hchild := siblings_infix_turnsAt htext hlinked hlevels houter habove hisOpaque hpart
    rw [List.flatMap_singleton] at hchild
    exact hchild.trans (ih habove)

/-- A level that is in effect around a node is neither opened nor closed in it. -/
theorem delimiter_ne_of_mem_ancestors {level : Nat} {id : NodeId} (hid : id < tree.size)
    (hvisited : tree.isVisited id = true)
    (habove : Node.emphasis level ∈ (tree.place id).ancestors) :
    ∀ turn ∈ turnsAt context tree id, turn.delimiter ≠ some level := by
  revert hvisited habove
  refine hlinked.of_children (motive := fun id => tree.isVisited id = true →
    Node.emphasis level ∈ (tree.place id).ancestors →
      ∀ turn ∈ turnsAt context tree id, turn.delimiter ≠ some level) ?_ hid
  intro id node hnode ih hvisited habove turn hturn
  -- A node of the same level finds it in effect and leaves its own delimiters out.
  have hown : ∀ phase, dueDelimiter tree id phase ≠ some level := by
    intro phase hdue
    obtain ⟨hlevel, hmerged⟩ := Option.filter_eq_some_iff.mp hdue
    rw [hlinked.mem_ancestors_iff hinline (Tree.lt_of_node? hnode)] at habove
    rw [Inline.isMerged.eq_def, habove] at hmerged
    simp at hmerged
  rw [turnsAt_eq htext hlinked hlevels hvisited hnode, List.mem_cons, List.mem_append,
    List.mem_singleton] at hturn
  rcases hturn with rfl | hturn | rfl
  · exact hown .enter
  · unfold turnsBelow at hturn
    split at hturn
    · cases hturn
    · next hisOpaque =>
        obtain ⟨child, hchild, hturn⟩ := List.mem_flatMap.mp hturn
        have hparent := hlinked.mem_children.mp hchild
        refine ih child hchild ?_ ?_ turn hturn
        · exact (hlinked.isVisited_child_iff hparent hnode).mpr ⟨by simpa using hisOpaque, hvisited⟩
        · rw [hlinked.ancestors_place_child hparent hnode]
          exact List.mem_cons_of_mem _ habove
  · exact hown .leave

theorem delimiter_ne_below {level : Nat} {id : NodeId}
    (hnode : tree.node? id = some (.emphasis level)) (hvisited : tree.isVisited id = true) :
    ∀ turn ∈ turnsBelow context tree id (.emphasis level), turn.delimiter ≠ some level := by
  intro turn hturn
  obtain ⟨child, hchild, hturn⟩ := List.mem_flatMap.mp hturn
  have hparent := hlinked.mem_children.mp hchild
  refine delimiter_ne_of_mem_ancestors htext hlinked hinline hlevels
    (Tree.lt_of_parentOf hparent) ?_ ?_ turn hturn
  · exact (hlinked.isVisited_child_iff hparent hnode).mpr ⟨rfl, hvisited⟩
  · rw [hlinked.ancestors_place_child hparent hnode]
    exact List.mem_cons_self

omit hinline in
theorem neighbours_infix_root {parent left right : NodeId} {before after : List NodeId}
    (hvisited : tree.isVisited left = true)
    (hsplit : tree.children parent = before ++ left :: right :: after) :
    turnsAt context tree left ++ turnsAt context tree right <:+:
      turnsAt context tree Tree.rootId := by
  have hparent := hlinked.parentOf_of_split hsplit
  obtain ⟨outer, houter⟩ := hlinked.exists_node?_of_parentOf hparent
  obtain ⟨hisOpaque, habove⟩ := (hlinked.isVisited_child_iff hparent houter).mp hvisited
  have hpart : tree.children parent = before ++ [left, right] ++ after := by simp [hsplit]
  have hpair := siblings_infix_turnsAt htext hlinked hlevels houter habove hisOpaque hpart
  rw [List.flatMap_cons, List.flatMap_singleton] at hpair
  exact hpair.trans (turnsAt_infix_root htext hlinked hlevels (Tree.lt_of_node? houter) habove)

end Renderer

/-- Between the first of two neighbours entering and the second leaving the level stays open, with
no delimiter of it in between. -/
def SharePair (turns : List Turn) (left right : NodeId) (level : Nat) : Prop :=
  ∃ before first inLeft inRight last after,
    turns = before ++ ⟨left, .enter, first⟩ :: (inLeft ++ ⟨left, .leave, none⟩ ::
      ⟨right, .enter, none⟩ :: (inRight ++ ⟨right, .leave, last⟩ :: after)) ∧
    (∀ turn ∈ inLeft ++ inRight, turn.delimiter ≠ some level) ∧
    ∃ opened, openAfter [] (before ++ ⟨left, .enter, first⟩ :: inLeft) = some opened ∧
      level ∈ opened

namespace Renderer

variable {context : Context} {tree : Tree} (htext : context.options.terminalStyling = false)
  (hgrown : tree.Grown) (hinline : tree.InlineBelow)
  (hlevels : ∀ id level, ¬context.options.Unsupported tree id level)
include htext hgrown hinline hlevels

theorem runs_root :
    Runs Turn.openAfter (Faithful tree) [] (turnsAt context tree Tree.rootId) [] := by
  have hlinked := hgrown.linked
  obtain ⟨node, hnode⟩ := Tree.exists_node?_of_lt hlinked.root_mem
  have hruns := runsAt htext hlinked hinline hlevels hlinked.root_mem hgrown.isVisited_root node []
    hnode (inEffect_root hgrown)
  have hend : carried [] (some node) Place.root.next = [] := carried_none [] (some node)
  rw [hgrown.place_root, hend] at hruns
  exact hruns

theorem sharePair {left right : NodeId} {level : Nat} (hnext : tree.nextOf left = some right)
    (hvisited : tree.isVisited left = true) (hleft : tree.node? left = some (.emphasis level))
    (hright : tree.node? right = some (.emphasis level)) :
    SharePair (turnsAt context tree Tree.rootId) left right level := by
  have hlinked := hgrown.linked
  obtain ⟨parent, before, after, hsplit⟩ := hgrown.exists_split_of_nextOf hnext
  have hparent := hlinked.parentOf_of_split hsplit
  obtain ⟨outer, houter⟩ := hlinked.exists_node?_of_parentOf hparent
  have hpassed : tree.children parent = (before ++ [left]) ++ right :: after := by simp [hsplit]
  have hseen : tree.isVisited right = true := by
    rw [hlinked.isVisited_child_iff (hlinked.parentOf_of_split hpassed) houter]
    rwa [hlinked.isVisited_child_iff hparent houter] at hvisited
  have hcloser : dueDelimiter tree left .leave = none := by
    rw [dueDelimiter_emphasis hleft, Inline.isMerged.eq_def, hlinked.place_of_split hsplit houter]
    simp [hright, Node.isEmphasis]
  have hopener : dueDelimiter tree right .enter = none := by
    rw [dueDelimiter_emphasis hright, Inline.isMerged.eq_def,
      hlinked.place_of_split hpassed houter]
    simp [Tree.nodes, hleft, Node.isEmphasis]
  obtain ⟨earlier, later, hturns⟩ := neighbours_infix_root htext hlinked hlevels hvisited hsplit
  rw [turnsAt_eq htext hlinked hlevels hvisited hleft,
    turnsAt_eq htext hlinked hlevels hseen hright, hcloser, hopener] at hturns
  have hwhole := hturns.symm
  simp only [List.append_assoc, List.cons_append, List.nil_append] at hwhole
  refine ⟨_, _, _, _, _, _, hwhole, ?_, ?_⟩
  · intro turn hturn
    rcases List.mem_append.mp hturn with hturn | hturn
    · exact delimiter_ne_below htext hlinked hinline hlevels hleft hvisited turn hturn
    · exact delimiter_ne_below htext hlinked hinline hlevels hright hseen turn hturn
  · have hruns := runs_root htext hgrown hinline hlevels
    rw [hwhole, ← List.cons_append, ← List.append_assoc] at hruns
    obtain ⟨opened, hopened, -, node, hnode, hmem⟩ := hruns.of_split
    cases hleft.symm.trans hnode
    refine ⟨opened, hopened, ?_⟩
    exact (hmem (fun hphase => by cases hphase) level).mpr List.mem_cons_self

end Renderer

/-- Emphasis is shown exactly where it applies. The delimiters of a document nest, no level is open
twice, the levels that are open where a node other than an emphasis enters are those of the emphasis
around it, none is open when a block leaves, and neighbours of the same level share their pair.
Emphasis itself writes nothing but its delimiters. -/
theorem Formatter.emphasis_nests (hardWraps : Bool) (formatCode : CodeFormatter) (source : Source)
    {tree : Tree} (hgrown : tree.Grown) (hinline : tree.InlineBelow)
    (hlevels : ∀ id level, tree.isVisited id = true → tree.node? id = some (.emphasis level) →
      level = 1 ∨ level = 2) :
    let context : Context := { source, options := { hardWraps }, formatCode }
    let body := ({ options := { hardWraps }, formatCode } : Formatter).body source tree
    let turns := body.turns tree
    body.failure = none ∧ openAfter [] turns = some [] ∧
    (∀ before turn after, turns = before ++ turn :: after →
      ∃ opened node, openAfter [] before = some opened ∧ opened.Nodup ∧
        tree.node? turn.node = some node ∧
        (turn.phase = .enter → node.kind ≠ .emphasis →
          ∀ level, level ∈ opened ↔ .emphasis level ∈ (tree.place turn.node).ancestors) ∧
        (turn.phase = .leave → node.isInline = false → opened = [])) ∧
    (∀ id < tree.size, tree.isVisited id = true → ∃ before first inner last after,
      turns = before ++ ⟨id, .enter, first⟩ :: (inner ++ ⟨id, .leave, last⟩ :: after)) ∧
    (∀ left right level, tree.nextOf left = some right → tree.isVisited left = true →
      tree.node? left = some (.emphasis level) → tree.node? right = some (.emphasis level) →
        SharePair turns left right level) ∧
    ∀ id level, tree.isVisited id = true → tree.node? id = some (.emphasis level) →
      Renderer.stepsAt context tree id <:+: body.steps ∧ ∃ before first inner last after,
        turns = before ++ ⟨id, .enter, first⟩ :: (inner ++ ⟨id, .leave, last⟩ :: after) ∧
        Renderer.stepsAt context tree id = .visit id .enter :: (delimiterSteps first ++
          ((tree.children id).flatMap (Renderer.stepsAt context tree) ++
            .visit id .leave :: delimiterSteps last)) := by
  intro context body turns
  have hlinked := hgrown.linked
  have hshown : ∀ id level, ¬context.options.Unsupported tree id level := by
    rintro id level ⟨hvisited, hnode, hlevel⟩
    rcases hlevels id level hvisited hnode with rfl | rfl <;> cases hlevel
  have hvisited : tree.isVisited Tree.rootId = true := by
    rw [Tree.isVisited, hgrown.place_root]
    rfl
  have hbody : body = (Renderer.standard context).layoutOf tree Tree.rootId :=
    Formatter.body_eq _ _ hgrown
  have hturns : turns = Renderer.turnsAt context tree Tree.rootId := by
    simp only [turns, hbody]
    rfl
  have htext : context.options.terminalStyling = false := rfl
  have hruns := Renderer.runs_root htext hgrown hinline hshown
  have hframe : ∀ id, tree.isVisited id = true → ∀ node, tree.node? id = some node →
      ∃ before inner after, Renderer.turnsAt context tree Tree.rootId =
        before ++ ⟨id, .enter, dueDelimiter tree id .enter⟩ ::
          (inner ++ ⟨id, .leave, dueDelimiter tree id .leave⟩ :: after) := by
    intro id hvisited node hnode
    obtain ⟨before, after, hturns⟩ := Renderer.turnsAt_infix_root htext hlinked hshown
      (Tree.lt_of_node? hnode) hvisited
    rw [Renderer.turnsAt_eq htext hlinked hshown hvisited hnode] at hturns
    simp only [List.append_assoc, List.cons_append, List.nil_append] at hturns
    exact ⟨_, _, _, hturns.symm⟩
  rw [hturns]
  refine ⟨?_, hruns.openAfter_eq, ?_, ?_, ?_, ?_⟩
  · rw [hbody]
    exact Renderer.failure_layoutOf hlinked hshown hlinked.root_mem hvisited
  · intro before turn after hsplit
    rw [hsplit] at hruns
    obtain ⟨opened, hopened, hnodup, node, hnode, hmem⟩ := hruns.of_split
    refine ⟨opened, node, hopened, hnodup, hnode, ?_, ?_⟩
    · intro henter hkind level
      have hlevel : node.emphasisLevel? = none := Node.emphasisLevel?_eq_none hkind
      rw [hmem (fun _ => hlevel), List.mem_cons, or_iff_right]
      rintro rfl
      exact hkind rfl
    · intro hleave hblock
      rw [List.eq_nil_iff_forall_not_mem]
      intro level
      rw [hmem (fun henter => by cases henter.symm.trans hleave)]
      exact hlinked.not_mem_of_block hinline hnode hblock level
  · intro id hid hvisited
    obtain ⟨node, hnode⟩ := Tree.exists_node?_of_lt hid
    obtain ⟨before, inner, after, hturns⟩ := hframe id hvisited node hnode
    exact ⟨_, _, _, _, _, hturns⟩
  · intro left right level hnext hseen hleft hright
    exact Renderer.sharePair htext hgrown hinline hshown hnext hseen hleft hright
  · intro id level hseen hnode
    obtain ⟨before, inner, after, hturns⟩ := hframe id hseen _ hnode
    have hsteps := Renderer.stepsAt_emphasis htext hlinked hshown hseen hnode
    refine ⟨?_, _, _, _, _, _, hturns, hsteps⟩
    rw [hbody]
    exact Renderer.stepsAt_within_root htext hlinked hshown (Tree.lt_of_node? hnode) hseen

/-- Two neighbours of level two. The first has a third of its level in a link, and the second one of
level one. -/
def sharedRuns : Tree :=
  (((((((Tree.new.appended Tree.rootId .paragraph).appended 1 (.emphasis 2)).appended 2
    (.link "" "")).appended 3 (.emphasis 2)).appended 4 (.string "a")).appended 1
    (.emphasis 2)).appended 6 (.emphasis 1)).appended 7 (.string "b")

theorem sharedRuns_grown : sharedRuns.Grown :=
  .append (.append (.append (.append (.append (.append (.append (.append .new
    (Tree.append?_of_lt (by decide) _)) (Tree.append?_of_lt (by decide) _))
    (Tree.append?_of_lt (by decide) _)) (Tree.append?_of_lt (by decide) _))
    (Tree.append?_of_lt (by decide) _)) (Tree.append?_of_lt (by decide) _))
    (Tree.append?_of_lt (by decide) _)) (Tree.append?_of_lt (by decide) _)

theorem sharedRuns_inlineBelow : sharedRuns.InlineBelow :=
  Tree.inlineBelow_of_forall (by decide)

theorem Formatter.sharedRuns_nest :
    let body := ({} : Formatter).body #[] sharedRuns
    let turns := body.turns sharedRuns
    sharedRuns.Grown ∧ sharedRuns.InlineBelow ∧
      turns.filterMap Turn.delimiter = [2, 1, 1, 2] ∧
      openAfter [] turns = some [] ∧ SharePair turns 2 6 2 := by
  intro body turns
  have hlevels : ∀ id level, sharedRuns.isVisited id = true →
      sharedRuns.node? id = some (.emphasis level) → level = 1 ∨ level = 2 := by
    intro id level _ hnode
    have hid : id < 9 := Tree.lt_of_node? hnode
    have hall : ∀ id < 9, ((sharedRuns.node? id).bind Node.emphasisLevel?).all (fun level =>
        level == 1 || level == 2) = true := by decide
    have hone := hall id hid
    rw [hnode] at hone
    simpa [Node.emphasisLevel?] using hone
  obtain ⟨-, hopened, -, -, hshared, -⟩ := Formatter.emphasis_nests false .none #[] sharedRuns_grown
    sharedRuns_inlineBelow hlevels
  have hdelimiters : turns.filterMap Turn.delimiter = [2, 1, 1, 2] := by decide +kernel
  exact ⟨sharedRuns_grown, sharedRuns_inlineBelow, hdelimiters, hopened,
    hshared 2 6 2 (by decide) (by decide) (by decide) (by decide)⟩

end Render

end CanonicalMarkdown
