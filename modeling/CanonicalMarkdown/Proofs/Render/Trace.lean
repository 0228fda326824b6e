import CanonicalMarkdown.Proofs.Render.Unsupported

namespace CanonicalMarkdown.Render

open Document Output

/-! What a layout does, step by step and without its layers. -/

inductive Step where
  | visit (node : NodeId) (phase : Phase)
  | write (chunk : Chunk)
  deriving DecidableEq, Repr

namespace Layout

def steps : Layout → List Step
  | .done => []
  | .fail _ => []
  | .visit node phase rest => .visit node phase :: rest.steps
  | .write chunk rest => .write chunk :: rest.steps
  | .within _ body rest => body.steps ++ rest.steps

@[simp] theorem steps_visit (node : NodeId) (phase : Phase) (rest : Layout) :
    (visit node phase rest).steps = .visit node phase :: rest.steps := rfl

@[simp] theorem steps_through (layer : Layer) (body : Layout) :
    (through layer body).steps = body.steps := by
  simp [through, steps]

theorem steps_append {first : Layout} (hfirst : first.failure = none) (second : Layout) :
    (first ++ second).steps = first.steps ++ second.steps := by
  induction first with
  | done => rfl
  | fail error => cases hfirst
  | visit node phase rest ih => simp [steps, ih hfirst]
  | write chunk rest ih => simp [steps, ih (by simpa using hfirst)]
  | within layer body rest _ ih =>
      have hparts : body.failure = none ∧ rest.failure = none := by simpa using hfirst
      simp [steps, ih hparts.2]

theorem steps_concat {parts : List Layout} (hparts : ∀ part ∈ parts, part.failure = none) :
    (concat parts).steps = parts.flatMap steps := by
  induction parts with
  | nil => rfl
  | cons part rest ih =>
      rw [concat, steps_append (hparts part (by simp)), List.flatMap_cons,
        ih fun part hpart => hparts part (by simp [hpart])]

theorem IsPlain.exists_steps {layout : Layout} (hplain : layout.IsPlain) :
    ∃ chunks : List Chunk, layout.steps = chunks.map .write := by
  induction layout with
  | done => exact ⟨[], rfl⟩
  | fail error => exact hplain.elim
  | visit node phase rest _ => exact hplain.elim
  | write chunk rest ih =>
      obtain ⟨chunks, hchunks⟩ := ih hplain
      exact ⟨chunk :: chunks, by simp [steps, hchunks]⟩
  | within layer body rest ihBody ihRest =>
      obtain ⟨inner, hinner⟩ := ihBody hplain.1
      obtain ⟨chunks, hchunks⟩ := ihRest hplain.2
      exact ⟨inner ++ chunks, by simp [steps, hinner, hchunks]⟩

theorem Encloses.exists_steps {wrap : Layout → Layout} (hwrap : Encloses wrap) {body : Layout}
    (hbody : body.failure = none) :
    ∃ (before : List Chunk) (after : List UInt8), (wrap body).steps =
      before.map .write ++ body.steps ++ after.map fun byte => .write (.byte byte) := by
  induction hwrap with
  | itself => exact ⟨[], [], by simp⟩
  | after opening hopening _ ih =>
      obtain ⟨chunks, hchunks⟩ := hopening.exists_steps
      obtain ⟨before, after, hwrap⟩ := ih
      refine ⟨chunks ++ before, after, ?_⟩
      rw [steps_append hopening.failure_eq_none, hchunks, hwrap]
      simp
  | newline hinner ih =>
      obtain ⟨before, after, hwrap⟩ := ih
      refine ⟨before, after ++ [Bytes.newline], ?_⟩
      rw [steps_append ((hinner.failure_eq _).trans hbody), hwrap]
      have hnewline : Layout.newline.steps = [.write (.byte Bytes.newline)] := rfl
      simp [hnewline]
  | through layer _ ih =>
      obtain ⟨before, after, hwrap⟩ := ih
      exact ⟨before, after, by rw [steps_through, hwrap]⟩

end Layout

theorem Renderer.Enclosed.exists_steps {id : NodeId} {kind : Kind} {parts : List Layout}
    {layout : Layout} (henclosed : Enclosed id kind parts layout)
    (hparts : kind.isOpaque = false → ∀ part ∈ parts, part.failure = none) :
    ∃ (before : List Chunk) (after : List UInt8) (closing : List Chunk), layout.steps =
      .visit id .enter :: (before.map .write ++
        ((if kind.isOpaque then [] else parts.flatMap Layout.steps) ++
        (after.map (fun byte => .write (.byte byte)) ++
          .visit id .leave :: closing.map .write))) := by
  obtain ⟨wrap, closing, hwrap, hclosing, rfl⟩ := henclosed
  obtain ⟨chunks, hchunks⟩ := hclosing.exists_steps
  have hinner : (if kind.isOpaque then Layout.done else .concat parts).failure = none ∧
      (if kind.isOpaque then Layout.done else .concat parts).steps =
        if kind.isOpaque then [] else parts.flatMap Layout.steps := by
    split
    · exact ⟨rfl, rfl⟩
    · next hisOpaque =>
        have hparts := hparts (by simpa using hisOpaque)
        refine ⟨?_, Layout.steps_concat hparts⟩
        rw [Layout.failure_concat, List.findSome?_eq_none_iff]
        exact hparts
  obtain ⟨before, after, hsteps⟩ := hwrap.exists_steps hinner.1
  refine ⟨before, after, chunks, ?_⟩
  rw [Layout.steps_visit, Layout.steps_append ((hwrap.failure_eq _).trans hinner.1), hsteps,
    Layout.steps_visit, hchunks, hinner.2]
  simp

/-! Nodes by turns, each in one of its phases with the delimiter that it writes first of all. -/

def Step.delimits (level : Nat) : Step → Bool
  | .write (.bytes data) => Inline.delimiter? level == some data
  | _ => false

structure Turn where
  node : NodeId
  phase : Phase
  /-- The level of the delimiter, if there is one. -/
  delimiter : Option Nat
  deriving DecidableEq, Repr

def turnsOf (tree : Tree) : List Step → List Turn
  | [] => []
  | .visit node phase :: rest =>
      let delimiter := (tree.emphasisLevel? node).filter fun level =>
        rest.head?.any (·.delimits level)
      ⟨node, phase, delimiter⟩ :: turnsOf tree rest
  | .write _ :: rest => turnsOf tree rest

def Layout.turns (tree : Tree) (layout : Layout) : List Turn := turnsOf tree layout.steps

/-- Steps that do not begin with a delimiter, and so add none to what comes before them. -/
def Calm (steps : List Step) : Prop :=
  ∀ level, steps.head?.any (·.delimits level) = false

theorem calm_visit {node : NodeId} {phase : Phase} {rest : List Step} :
    Calm (.visit node phase :: rest) := fun _ => rfl

theorem Calm.append {first second : List Step} (hfirst : Calm first) (hsecond : Calm second) :
    Calm (first ++ second) := by
  cases first with
  | nil => exact hsecond
  | cons step rest => exact hfirst

theorem calm_bytes (bytes : List UInt8) : Calm (bytes.map fun byte => .write (.byte byte)) := by
  cases bytes with
  | nil => exact fun _ => rfl
  | cons byte rest => exact fun _ => rfl

theorem calm_flatMap {α : Type} {pieces : List α} {steps : α → List Step}
    (hcalm : ∀ piece ∈ pieces, Calm (steps piece)) : Calm (pieces.flatMap steps) := by
  induction pieces with
  | nil => exact fun _ => rfl
  | cons piece rest ih =>
      exact (hcalm piece (by simp)).append (ih fun piece hpiece => hcalm piece (by simp [hpiece]))

section

variable (tree : Tree)

theorem turnsOf_append (first : List Step) {second : List Step} (hcalm : Calm second) :
    turnsOf tree (first ++ second) = turnsOf tree first ++ turnsOf tree second := by
  induction first with
  | nil => rfl
  | cons step rest ih =>
      cases step with
      | write chunk => exact ih
      | visit node phase =>
          have hhead : ∀ level, (rest ++ second).head?.any (·.delimits level) =
              rest.head?.any (·.delimits level) := by
            intro level
            cases rest with
            | nil => exact hcalm level
            | cons step rest => rfl
          simp only [List.cons_append, turnsOf, hhead, ih]

theorem turnsOf_writes (chunks : List Chunk) (rest : List Step) :
    turnsOf tree (chunks.map .write ++ rest) = turnsOf tree rest := by
  induction chunks with
  | nil => rfl
  | cons chunk chunks ih => exact ih

theorem turnsOf_flatMap {α : Type} {pieces : List α} {steps : α → List Step}
    (hcalm : ∀ piece ∈ pieces, Calm (steps piece)) :
    turnsOf tree (pieces.flatMap steps) =
      pieces.flatMap fun piece => turnsOf tree (steps piece) := by
  induction pieces with
  | nil => rfl
  | cons piece rest ih =>
      have hrest : ∀ piece ∈ rest, Calm (steps piece) := fun piece hpiece =>
        hcalm piece (by simp [hpiece])
      rw [List.flatMap_cons, turnsOf_append tree _ (calm_flatMap hrest), ih hrest,
        List.flatMap_cons]

end

/-! The turns of a node: it enters, its children take theirs, and it leaves. -/

/-- The level of the delimiter that the node is due in a phase. -/
def dueDelimiter (tree : Tree) (id : NodeId) (phase : Phase) : Option Nat :=
  (tree.emphasisLevel? id).filter fun level => !Inline.isMerged (tree.place id) level phase

theorem dueDelimiter_eq_none {tree : Tree} {id : NodeId} {node : Node}
    (hnode : tree.node? id = some node) (hlevel : node.emphasisLevel? = none) (phase : Phase) :
    dueDelimiter tree id phase = none := by
  simp [dueDelimiter, Tree.emphasisLevel?, hnode, hlevel]

theorem dueDelimiter_emphasis {tree : Tree} {id : NodeId} {level : Nat}
    (hnode : tree.node? id = some (.emphasis level)) (phase : Phase) :
    dueDelimiter tree id phase =
      if Inline.isMerged (tree.place id) level phase then none else some level := by
  cases hmerged : Inline.isMerged (tree.place id) level phase <;>
    simp [dueDelimiter, Tree.emphasisLevel?, hnode, Node.emphasisLevel?, hmerged]

/-- The mark of the level, where there is a delimiter. -/
def delimiterSteps (delimiter : Option Nat) : List Step :=
  (delimiter.bind Inline.delimiter?).toList.map fun mark => .write (.bytes mark)

namespace Renderer

variable {context : Context} {tree : Tree}

def stepsAt (context : Context) (tree : Tree) (id : NodeId) : List Step :=
  ((standard context).layoutOf tree id).steps

def turnsAt (context : Context) (tree : Tree) (id : NodeId) : List Turn :=
  ((standard context).layoutOf tree id).turns tree

/-- The turns of all that is below a node, as far as it is rendered. -/
def turnsBelow (context : Context) (tree : Tree) (id : NodeId) (node : Node) : List Turn :=
  if node.kind.isOpaque then [] else (tree.children id).flatMap (turnsAt context tree)

theorem calm_layoutOf (renderer : Renderer) (tree : Tree) (id : NodeId) :
    Calm (renderer.layoutOf tree id).steps := by
  rw [layoutOf]
  cases tree.element? id with
  | none => exact fun _ => rfl
  | some element =>
      rw [Option.map_some, Option.getD_some, walk_eq, around, Layout.steps_visit]
      exact calm_visit

section

variable (hlinked : tree.Linked)
  (hlevels : ∀ id level, ¬context.options.Unsupported tree id level)
include hlevels

theorem supports_of_visited {id : NodeId} {level : Nat}
    (hnode : tree.node? id = some (.emphasis level)) (hvisited : tree.isVisited id = true) :
    context.options.supports level = true := by
  by_contra hlevel
  exact hlevels id level ⟨hvisited, hnode, by simpa using hlevel⟩

include hlinked

theorem failure_layoutOf {id : NodeId} (hid : id < tree.size)
    (hvisited : tree.isVisited id = true) :
    ((standard context).layoutOf tree id).failure = none := by
  refine hlinked.of_visited_children (motive := fun id =>
    ((standard context).layoutOf tree id).failure = none) ?_ hid hvisited
  intro id node hnode hvisited ih
  have hparts : node.kind.isOpaque = false →
      ((tree.children id).map ((standard context).layoutOf tree)).findSome? Layout.failure =
        none := by
    intro hisOpaque
    rw [List.findSome?_eq_none_iff]
    intro part hpart
    obtain ⟨child, hchild, rfl⟩ := List.mem_map.mp hpart
    exact ih hisOpaque child hchild
  rw [(standard context).layoutOf_eq hlinked hnode]
  by_cases hkind : node.kind = .emphasis
  · obtain ⟨level, rfl⟩ := Node.exists_eq_emphasis hkind
    have hlevel := supports_of_visited hlevels hnode hvisited
    rw [around_emphasis, Layout.failure_visit, Layout.failure_append, Layout.failure_append,
      Layout.failure_visit, failure_marking hlevel, failure_marking hlevel, Layout.failure_concat,
      hparts rfl]
    rfl
  · rw [(around_enclosed context _ (.mk id node _) _ hkind).failure_eq]
    split
    · rfl
    · next hisOpaque => exact hparts (by simpa [Element.kind, Element.node] using hisOpaque)

theorem failure_children {id : NodeId} {node : Node} (hnode : tree.node? id = some node)
    (hvisited : tree.isVisited id = true) (hisOpaque : node.kind.isOpaque = false) :
    ∀ part ∈ (tree.children id).map ((standard context).layoutOf tree), part.failure = none := by
  intro part hpart
  obtain ⟨child, hchild, rfl⟩ := List.mem_map.mp hpart
  have hparent := hlinked.mem_children.mp hchild
  exact failure_layoutOf hlinked hlevels (Tree.lt_of_parentOf hparent)
    ((hlinked.isVisited_child_iff hparent hnode).mpr ⟨hisOpaque, hvisited⟩)

end

theorem calm_stepsAt (context : Context) (tree : Tree) (id : NodeId) :
    Calm (stepsAt context tree id) := calm_layoutOf (standard context) tree id

theorem turnsOf_children (context : Context) (tree : Tree) (children : List NodeId)
    {rest : List Step} (hcalm : Calm rest) :
    turnsOf tree (children.flatMap (stepsAt context tree) ++ rest) =
      children.flatMap (turnsAt context tree) ++ turnsOf tree rest := by
  have hchildren : ∀ child ∈ children, Calm (stepsAt context tree child) :=
    fun child _ => calm_stepsAt context tree child
  rw [turnsOf_append tree _ hcalm, turnsOf_flatMap tree hchildren]
  rfl

section

variable (hlinked : tree.Linked)
  (hlevels : ∀ id level, ¬context.options.Unsupported tree id level) {id : NodeId} {node : Node}
  (hnode : tree.node? id = some node) (hvisited : tree.isVisited id = true)
  (hkind : node.kind ≠ .emphasis)
include hlinked hlevels hnode hvisited hkind

theorem stepsAt_of_ne_emphasis :
    ∃ (before : List Chunk) (after : List UInt8) (closing : List Chunk),
      stepsAt context tree id = .visit id .enter :: (before.map .write ++
        ((if node.kind.isOpaque then [] else (tree.children id).flatMap (stepsAt context tree)) ++
        (after.map (fun byte => .write (.byte byte)) ++
          .visit id .leave :: closing.map .write))) := by
  have henclosed : Enclosed id node.kind ((tree.children id).map ((standard context).layoutOf tree))
      ((standard context).layoutOf tree id) := by
    rw [(standard context).layoutOf_eq hlinked hnode]
    exact around_enclosed context (tree.place id) (.mk id node _) _ hkind
  have hsteps := henclosed.exists_steps (failure_children hlinked hlevels hnode hvisited)
  rwa [List.flatMap_map] at hsteps

theorem turnsAt_of_ne_emphasis :
    turnsAt context tree id =
      ⟨id, .enter, none⟩ :: (turnsBelow context tree id node ++ [⟨id, .leave, none⟩]) := by
  obtain ⟨before, after, closing, hsteps⟩ :=
    stepsAt_of_ne_emphasis hlinked hlevels hnode hvisited hkind
  have hnone : tree.emphasisLevel? id = none := by
    rw [Tree.emphasisLevel?, hnode]
    exact Node.emphasisLevel?_eq_none hkind
  have hcalm : Calm (after.map (fun byte => .write (.byte byte)) ++
      .visit id .leave :: closing.map .write) := (calm_bytes after).append calm_visit
  have hclosing : turnsOf tree (after.map (fun byte => .write (.byte byte)) ++
      .visit id .leave :: closing.map .write) = [⟨id, .leave, none⟩] := by
    have hend := turnsOf_writes tree closing []
    have hbytes := turnsOf_writes tree (after.map .byte) (.visit id .leave :: closing.map .write)
    rw [List.append_nil] at hend
    rw [List.map_map] at hbytes
    refine hbytes.trans ?_
    simp [turnsOf, hnone, hend]
  change turnsOf tree (stepsAt context tree id) = _
  rw [hsteps, turnsOf, hnone, turnsOf_writes, turnsBelow]
  simp only [Option.filter_none, List.cons.injEq, true_and]
  split
  · exact hclosing
  · rw [turnsOf_children context tree _ hcalm, hclosing]

end

section

variable (htext : context.options.terminalStyling = false)
include htext

theorem exists_delimiter? {level : Nat} (hlevel : context.options.supports level = true)
    (phase : Phase) :
    ∃ mark, Inline.emphasisMark? context.options.terminalStyling phase level = some mark ∧
      Inline.delimiter? level = some mark := by
  obtain ⟨mark, hmark⟩ := exists_emphasisMark? hlevel phase
  refine ⟨mark, hmark, ?_⟩
  rw [htext] at hmark
  cases phase <;> exact hmark

theorem steps_marking {id : NodeId} {level : Nat}
    (hnode : tree.node? id = some (.emphasis level))
    (hlevel : context.options.supports level = true) (phase : Phase) :
    (marking context.options (tree.place id) level phase).steps =
      delimiterSteps (dueDelimiter tree id phase) := by
  obtain ⟨mark, hmark, hdelimiter⟩ := exists_delimiter? htext hlevel phase
  rw [marking, hmark, dueDelimiter_emphasis hnode]
  split
  · rfl
  · simp [delimiterSteps, hdelimiter, Layout.bytes, Layout.steps]

theorem turnsOf_delimiterSteps {id : NodeId} {level : Nat}
    (hnode : tree.node? id = some (.emphasis level))
    (hlevel : context.options.supports level = true) (phase : Phase) {rest : List Step}
    (hcalm : Calm rest) :
    turnsOf tree (.visit id phase :: (delimiterSteps (dueDelimiter tree id phase) ++ rest)) =
      ⟨id, phase, dueDelimiter tree id phase⟩ :: turnsOf tree rest := by
  obtain ⟨mark, -, hdelimiter⟩ := exists_delimiter? htext hlevel phase
  have hown : tree.emphasisLevel? id = some level := by
    simp [Tree.emphasisLevel?, hnode, Node.emphasisLevel?]
  rw [dueDelimiter_emphasis hnode, turnsOf, hown]
  split
  · have hnone : (some level).filter (fun level => rest.head?.any (·.delimits level)) = none := by
      simp [hcalm level]
    simp [delimiterSteps, hnone]
  · simp [delimiterSteps, turnsOf, Step.delimits, hdelimiter]

variable (hlinked : tree.Linked)
  (hlevels : ∀ id level, ¬context.options.Unsupported tree id level) {id : NodeId}
  (hvisited : tree.isVisited id = true)
include hlinked hlevels hvisited

/-- An emphasis writes its delimiters and nothing else. -/
theorem stepsAt_emphasis {level : Nat} (hnode : tree.node? id = some (.emphasis level)) :
    stepsAt context tree id =
      .visit id .enter :: (delimiterSteps (dueDelimiter tree id .enter) ++
        ((tree.children id).flatMap (stepsAt context tree) ++
          .visit id .leave :: delimiterSteps (dueDelimiter tree id .leave))) := by
  have hlevel := supports_of_visited hlevels hnode hvisited
  have hparts := failure_children hlinked hlevels hnode hvisited rfl
  have hinner : (marking context.options (tree.place id) level .enter ++
      .concat ((tree.children id).map ((standard context).layoutOf tree))).failure = none := by
    rw [Layout.failure_append, failure_marking hlevel, Option.none_or, Layout.failure_concat,
      List.findSome?_eq_none_iff]
    exact hparts
  rw [stepsAt, (standard context).layoutOf_eq hlinked hnode, around_emphasis, Layout.steps_visit,
    Layout.steps_append hinner, Layout.steps_append (failure_marking hlevel ..),
    Layout.steps_concat hparts, Layout.steps_visit, List.append_assoc, List.flatMap_map,
    steps_marking htext hnode hlevel, steps_marking htext hnode hlevel]
  rfl

theorem turnsAt_emphasis {level : Nat} (hnode : tree.node? id = some (.emphasis level)) :
    turnsAt context tree id =
      ⟨id, .enter, dueDelimiter tree id .enter⟩ ::
        ((tree.children id).flatMap (turnsAt context tree) ++
          [⟨id, .leave, dueDelimiter tree id .leave⟩]) := by
  have hlevel := supports_of_visited hlevels hnode hvisited
  have hlast : turnsOf tree (.visit id .leave :: delimiterSteps (dueDelimiter tree id .leave)) =
      [⟨id, .leave, dueDelimiter tree id .leave⟩] := by
    rw [← List.append_nil (delimiterSteps _),
      turnsOf_delimiterSteps htext hnode hlevel .leave fun _ => rfl]
    rfl
  have hchildren : Calm ((tree.children id).flatMap (stepsAt context tree)) :=
    calm_flatMap fun child _ => calm_stepsAt context tree child
  change turnsOf tree (stepsAt context tree id) = _
  rw [stepsAt_emphasis htext hlinked hlevels hvisited hnode,
    turnsOf_delimiterSteps htext hnode hlevel .enter (hchildren.append calm_visit),
    turnsOf_children context tree _ calm_visit, hlast]

theorem turnsAt_eq {node : Node} (hnode : tree.node? id = some node) :
    turnsAt context tree id =
      ⟨id, .enter, dueDelimiter tree id .enter⟩ ::
        (turnsBelow context tree id node ++ [⟨id, .leave, dueDelimiter tree id .leave⟩]) := by
  by_cases hkind : node.kind = .emphasis
  · obtain ⟨level, rfl⟩ := Node.exists_eq_emphasis hkind
    exact turnsAt_emphasis htext hlinked hlevels hvisited hnode
  · have hlevel := Node.emphasisLevel?_eq_none hkind
    rw [turnsAt_of_ne_emphasis hlinked hlevels hnode hvisited hkind,
      dueDelimiter_eq_none hnode hlevel, dueDelimiter_eq_none hnode hlevel]

theorem stepsAt_within_parent {node : Node} (hnode : tree.node? id = some node)
    (hisOpaque : node.kind.isOpaque = false) {child : NodeId} (hchild : child ∈ tree.children id) :
    stepsAt context tree child <:+: stepsAt context tree id := by
  have hbelow : stepsAt context tree child <:+:
      (tree.children id).flatMap (stepsAt context tree) := by
    rw [List.flatMap_def]
    exact List.infix_of_mem_flatten (List.mem_map_of_mem hchild)
  refine hbelow.trans ?_
  by_cases hkind : node.kind = .emphasis
  · obtain ⟨level, rfl⟩ := Node.exists_eq_emphasis hkind
    rw [stepsAt_emphasis htext hlinked hlevels hvisited hnode, ← List.cons_append]
    exact List.infix_append' _ _ _
  · obtain ⟨before, after, closing, hsteps⟩ :=
      stepsAt_of_ne_emphasis hlinked hlevels hnode hvisited hkind
    rw [hsteps, hisOpaque, if_neg Bool.false_ne_true, ← List.cons_append]
    exact List.infix_append' _ _ _

omit hvisited in
/-- Whatever is done at a node that is visited is done in the course of the whole. -/
theorem stepsAt_within_root (hid : id < tree.size) (hvisited : tree.isVisited id = true) :
    stepsAt context tree id <:+: stepsAt context tree Tree.rootId := by
  revert hvisited
  refine hlinked.of_root_of_parent (motive := fun id => tree.isVisited id = true →
    stepsAt context tree id <:+: stepsAt context tree Tree.rootId) ?_ ?_ hid
  · intro _
    exact List.infix_rfl
  · intro id parent hparent ih hvisited
    obtain ⟨outer, houter⟩ := hlinked.exists_node?_of_parentOf hparent
    obtain ⟨hisOpaque, habove⟩ := (hlinked.isVisited_child_iff hparent houter).mp hvisited
    have hchild := hlinked.mem_children.mpr hparent
    exact (stepsAt_within_parent htext hlinked hlevels habove houter hisOpaque hchild).trans
      (ih habove)

end

end Renderer

end CanonicalMarkdown.Render
