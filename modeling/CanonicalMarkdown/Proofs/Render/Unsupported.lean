import CanonicalMarkdown.Proofs.Document.Safety
import CanonicalMarkdown.Proofs.Render.Failure
import CanonicalMarkdown.Proofs.Render.Independence
import Mathlib

namespace CanonicalMarkdown

/-- What holds of the level of each node in turn holds of every level of emphasis. -/
theorem Document.Tree.forall_emphasis {tree : Tree} {P : Nat → Prop}
    (hall : ∀ id < tree.size, ∀ level ∈ tree.emphasisLevel? id, P level) {id : NodeId}
    {level : Nat} (hnode : tree.node? id = some (.emphasis level)) : P level := by
  refine hall id (lt_of_node? hnode) level ?_
  rw [emphasisLevel?, hnode]
  rfl

namespace Render

open Document Output

/-! The levels of emphasis that can be shown. -/

def Options.supports (options : Options) (level : Nat) : Bool :=
  level == 1 || level == 2 || (options.terminalStyling && level == 3)

/-- A walk comes to the node, an emphasis of a level that cannot be shown. -/
structure Options.Unsupported (options : Options) (tree : Tree) (id : NodeId) (level : Nat) :
    Prop where
  visited : tree.isVisited id = true
  node?_eq : tree.node? id = some (.emphasis level)
  level_eq : options.supports level = false

def Options.unsupported? (options : Options) (tree : Tree) (id : NodeId) : Option Nat :=
  if tree.isVisited id then (tree.emphasisLevel? id).filter (!options.supports ·) else none

theorem Options.unsupported?_eq_some_iff {options : Options} {tree : Tree} {id : NodeId}
    {level : Nat} :
    options.unsupported? tree id = some level ↔ options.Unsupported tree id level := by
  have hlevel : tree.emphasisLevel? id = some level ↔ tree.node? id = some (.emphasis level) := by
    unfold Tree.emphasisLevel?
    cases tree.node? id with
    | none => simp
    | some node => cases node <;> simp [Node.emphasisLevel?]
  unfold Options.unsupported?
  split
  · next hvisited =>
      rw [Option.filter_eq_some_iff, hlevel]
      constructor
      · rintro ⟨hnode, hfalse⟩
        exact ⟨hvisited, hnode, by simpa using hfalse⟩
      · rintro ⟨-, hnode, hfalse⟩
        exact ⟨hnode, by simpa using hfalse⟩
  · next hvisited =>
      constructor
      · intro hnone
        cases hnone
      · intro hunsupported
        exact absurd hunsupported.visited hvisited

theorem Options.unsupported?_eq_none_iff {options : Options} {tree : Tree} {id : NodeId} :
    options.unsupported? tree id = none ↔ ∀ level, ¬options.Unsupported tree id level := by
  rw [Option.eq_none_iff_forall_ne_some]
  exact forall_congr' fun level => not_congr Options.unsupported?_eq_some_iff

theorem emphasisMark?_enter_eq_none {options : Options} {level : Nat}
    (hlevel : options.supports level = false) :
    Inline.emphasisMark? options.terminalStyling .enter level = none := by
  simp only [Options.supports, Bool.or_eq_false_iff, beq_eq_false_iff_ne, ne_eq,
    Bool.and_eq_false_iff] at hlevel
  obtain ⟨⟨hone, htwo⟩, hthree⟩ := hlevel
  cases hstyling : options.terminalStyling with
  | true =>
      have hother : level ≠ 3 := by simpa [hstyling] using hthree
      simp only [Inline.emphasisMark?]
      unfold Inline.terminalStyle?
      split <;> simp_all
  | false =>
      simp only [Inline.emphasisMark?]
      unfold Inline.delimiter?
      split <;> simp_all

theorem exists_emphasisMark? {options : Options} {level : Nat}
    (hlevel : options.supports level = true) (phase : Phase) :
    ∃ mark, Inline.emphasisMark? options.terminalStyling phase level = some mark := by
  simp only [Options.supports, Bool.or_eq_true, beq_iff_eq, Bool.and_eq_true] at hlevel
  rcases hlevel with (rfl | rfl) | ⟨hstyling, rfl⟩
  · cases options.terminalStyling <;> cases phase <;> exact ⟨_, rfl⟩
  · cases options.terminalStyling <;> cases phase <;> exact ⟨_, rfl⟩
  · rw [hstyling]
    cases phase <;> exact ⟨_, rfl⟩

theorem failure_marking {options : Options} {level : Nat}
    (hlevel : options.supports level = true) (place : Place) (phase : Phase) :
    (Renderer.marking options place level phase).failure = none := by
  obtain ⟨mark, hmark⟩ := exists_emphasisMark? hlevel phase
  unfold Renderer.marking
  split
  · rfl
  · rw [hmark]
    rfl

/-! A node whose level cannot be shown is never hidden by a neighbour or by a node around it: a
walk would have failed there before. -/

namespace Renderer

variable (context : Context) {tree : Tree}

/-- No level that cannot be shown is in effect where the node stands. -/
def Unmasked (tree : Tree) (id : NodeId) : Prop :=
  ∀ level, context.options.supports level = false →
    Inline.isMerged (tree.place id) level .enter = false

def FailsFirst (tree : Tree) (id : NodeId) : Prop :=
  ((standard context).layoutOf tree id).failure =
    ((tree.preorder id).findSome? (context.options.unsupported? tree)).map .unsupportedEmphasis

variable {context}

theorem failure_siblings (hlinked : tree.Linked) {parent : NodeId} {node : Node}
    {left right : List NodeId} (hnode : tree.node? parent = some node)
    (hvisited : ∀ child ∈ tree.children parent, tree.isVisited child = true)
    (habove : ∀ level, context.options.supports level = false →
      ((node :: (tree.place parent).ancestors).takeWhile Node.isInline).any
        (·.isEmphasis level) = false)
    (hbelow : ∀ child ∈ tree.children parent, Unmasked context tree child →
      FailsFirst context tree child)
    (hsplit : tree.children parent = left ++ right)
    (hlast : ∀ last, left.getLast? = some last → context.options.unsupported? tree last = none) :
    (right.map ((standard context).layoutOf tree)).findSome? Layout.failure =
      ((right.flatMap tree.preorder).findSome? (context.options.unsupported? tree)).map
        .unsupportedEmphasis := by
  induction right generalizing left with
  | nil => rfl
  | cons child right ih =>
      have hchild : child ∈ tree.children parent := by simp [hsplit]
      have hunmasked : Unmasked context tree child := by
        intro level hlevel
        rw [Inline.isMerged, hlinked.place_of_split hsplit hnode, Bool.or_eq_false_iff]
        refine ⟨?_, habove level hlevel⟩
        rcases List.eq_nil_or_concat left with rfl | ⟨front, last, rfl⟩
        · rfl
        · have hmem : last ∈ tree.children parent := by simp [hsplit]
          obtain ⟨own, hown⟩ := hlinked.exists_node?_of_mem_children hmem
          have hshown := hlast last (by simp)
          by_contra hmasked
          have hemphasis : own = .emphasis level := by
            simpa [Tree.nodes, hown, Node.isEmphasis_iff] using hmasked
          exact Options.unsupported?_eq_none_iff.mp hshown level
            ⟨hvisited last hmem, hemphasis ▸ hown, hlevel⟩
      have hfirst := hbelow child hchild hunmasked
      rw [List.map_cons, List.findSome?_cons, List.flatMap_cons, List.findSome?_append, hfirst]
      cases hfound : (tree.preorder child).findSome? (context.options.unsupported? tree) with
      | some level => rfl
      | none =>
          have hpassed : tree.children parent = (left ++ [child]) ++ right := by simp [hsplit]
          refine ih hpassed ?_
          intro last hlast
          rw [List.getLast?_concat, Option.some.injEq] at hlast
          subst hlast
          obtain ⟨own, hown⟩ := hlinked.exists_node?_of_mem_children hchild
          rw [List.findSome?_eq_none_iff] at hfound
          exact hfound child (by rw [hlinked.preorder_eq hown]; exact List.mem_cons_self)

theorem failsFirst_of_children (hlinked : tree.Linked) {id : NodeId} {node : Node}
    (hnode : tree.node? id = some node) (hvisited : tree.isVisited id = true)
    (hunmasked : Unmasked context tree id) (hisOpaque : node.kind.isOpaque = false)
    (hshown : context.options.unsupported? tree id = none)
    (hbelow : ∀ child ∈ tree.children id, tree.isVisited child = true →
      Unmasked context tree child → FailsFirst context tree child) :
    ((tree.children id).map ((standard context).layoutOf tree)).findSome? Layout.failure =
      ((tree.preorder id).findSome? (context.options.unsupported? tree)).map
        .unsupportedEmphasis := by
  have hchildren : ∀ child ∈ tree.children id, tree.isVisited child = true := by
    intro child hchild
    have hparent := hlinked.mem_children.mp hchild
    exact (hlinked.isVisited_child_iff hparent hnode).mpr ⟨hisOpaque, hvisited⟩
  have habove : ∀ level, context.options.supports level = false →
      ((node :: (tree.place id).ancestors).takeWhile Node.isInline).any (·.isEmphasis level) =
        false := by
    intro level hlevel
    have hmerged := hunmasked level hlevel
    rw [Inline.isMerged, Bool.or_eq_false_iff] at hmerged
    rw [List.takeWhile_cons]
    split
    · rw [List.any_cons, Bool.or_eq_false_iff]
      refine ⟨?_, hmerged.2⟩
      by_contra hemphasis
      have hown : node = .emphasis level := Node.isEmphasis_iff.mp (by simpa using hemphasis)
      exact Options.unsupported?_eq_none_iff.mp hshown level ⟨hvisited, hown ▸ hnode, hlevel⟩
    · rfl
  have hall : tree.children id = [] ++ tree.children id := rfl
  rw [hlinked.preorder_eq hnode, List.findSome?_cons, hshown]
  exact failure_siblings hlinked hnode hchildren habove
    (fun child hchild => hbelow child hchild (hchildren child hchild)) hall (by simp)

theorem findSome?_below_opaque (hlinked : tree.Linked) {id : NodeId} {node : Node}
    (hnode : tree.node? id = some node) (hisOpaque : node.kind.isOpaque = true) :
    ((tree.children id).flatMap tree.preorder).findSome? (context.options.unsupported? tree) =
      none := by
  rw [List.findSome?_eq_none_iff]
  intro other hother
  obtain ⟨child, hchild, hbelow⟩ := List.mem_flatMap.mp hother
  have hparent := hlinked.mem_children.mp hchild
  rw [Options.unsupported?, if_neg]
  intro hvisited
  have hseen := hlinked.isVisited_of_mem_preorder (Tree.lt_of_parentOf hparent) hbelow hvisited
  obtain ⟨hfalse, -⟩ := (hlinked.isVisited_child_iff hparent hnode).mp hseen
  rw [hisOpaque] at hfalse
  cases hfalse

theorem failsFirst_emphasis (hlinked : tree.Linked) {id : NodeId} {level : Nat}
    (hnode : tree.node? id = some (.emphasis level)) (hvisited : tree.isVisited id = true)
    (hunmasked : Unmasked context tree id)
    (hbelow : ∀ child ∈ tree.children id, tree.isVisited child = true →
      Unmasked context tree child → FailsFirst context tree child) :
    FailsFirst context tree id := by
  rw [FailsFirst, (standard context).layoutOf_eq hlinked hnode, around_emphasis,
    Layout.failure_visit, Layout.failure_append, Layout.failure_append, Layout.failure_visit,
    Layout.failure_concat]
  cases hlevel : context.options.supports level with
  | true =>
      have hshown : context.options.unsupported? tree id = none := by
        rw [Options.unsupported?_eq_none_iff]
        rintro other ⟨-, hother, hfalse⟩
        cases hnode.symm.trans hother
        rw [hlevel] at hfalse
        cases hfalse
      rw [failure_marking hlevel, failure_marking hlevel, Option.none_or, Option.or_none]
      exact failsFirst_of_children hlinked hnode hvisited hunmasked rfl hshown hbelow
  | false =>
      have hfound := Options.unsupported?_eq_some_iff.mpr ⟨hvisited, hnode, hlevel⟩
      have hfails : marking context.options (tree.place id) level .enter =
          .fail (.unsupportedEmphasis level) := by
        rw [marking, hunmasked level hlevel, emphasisMark?_enter_eq_none hlevel]
        rfl
      rw [hfails, hlinked.preorder_eq hnode, List.findSome?_cons, hfound]
      rfl

theorem failsFirst (hlinked : tree.Linked) {id : NodeId} (hid : id < tree.size)
    (hvisited : tree.isVisited id = true) (hunmasked : Unmasked context tree id) :
    FailsFirst context tree id := by
  revert hvisited hunmasked
  refine hlinked.of_children (motive := fun id => tree.isVisited id = true →
    Unmasked context tree id → FailsFirst context tree id) ?_ hid
  intro id node hnode ih hvisited hunmasked
  by_cases hkind : node.kind = .emphasis
  · obtain ⟨level, rfl⟩ := Node.exists_eq_emphasis hkind
    exact failsFirst_emphasis hlinked hnode hvisited hunmasked ih
  · have hshown : context.options.unsupported? tree id = none := by
      rw [Options.unsupported?_eq_none_iff]
      rintro level ⟨-, hother, -⟩
      cases hnode.symm.trans hother
      exact absurd rfl hkind
    have henclosed := around_enclosed context (tree.place id)
      (.mk id node (tree.elements (tree.children id)))
      ((tree.children id).map ((standard context).layoutOf tree)) hkind
    rw [FailsFirst, (standard context).layoutOf_eq hlinked hnode, henclosed.failure_eq]
    cases hisOpaque : node.kind.isOpaque with
    | true =>
        rw [hlinked.preorder_eq hnode, List.findSome?_cons, hshown,
          findSome?_below_opaque hlinked hnode hisOpaque]
        exact if_pos hisOpaque
    | false =>
        rw [← failsFirst_of_children hlinked hnode hvisited hunmasked hisOpaque hshown ih]
        exact if_neg (by simp [Element.kind, Element.node, hisOpaque])

end Renderer

/-! Whole documents. -/

namespace Formatter

variable (options : Options) (formatCode : CodeFormatter) (source : Source)

theorem failure_body {tree : Tree} (hgrown : tree.Grown) :
    (({ options, formatCode } : Formatter).body source tree).failure =
      (tree.root.ids.findSome? (options.unsupported? tree)).map .unsupportedEmphasis := by
  have hlinked := hgrown.linked
  let context : Context := { source, options, formatCode }
  have hplace := hgrown.place_root
  have hunmasked : Renderer.Unmasked context tree Tree.rootId := by
    intro level _
    rw [hplace]
    rfl
  rw [body_eq _ _ hgrown, ← hlinked.preorder_root]
  exact Renderer.failsFirst hlinked hlinked.root_mem hgrown.isVisited_root hunmasked

theorem render_eq_error_iff (formatter : Formatter) (metadata : Option Yaml.Value) (tree : Tree)
    (error : RenderError) :
    formatter.render metadata source tree = .error error ↔
      (∃ cause, FrontMatter.encoded metadata = .error cause ∧ error = cause.inDocument) ∨
      ∃ block cause, FrontMatter.encoded metadata = .ok block ∧
        (formatter.body source tree).failure = some cause ∧ error = cause.inDocument := by
  rw [render_eq, Layout.failure]
  cases FrontMatter.encoded metadata with
  | error cause => simp [eq_comm]
  | ok block =>
      cases (formatter.body source tree).outcome with
      | mk result output => cases result <;> simp [Outcome.failure, eq_comm]

theorem render_none_eq_error_iff {tree : Tree} (hgrown : tree.Grown) (error : RenderError) :
    ({ options, formatCode } : Formatter).render none source tree = .error error ↔
      ∃ level, tree.root.ids.findSome? (options.unsupported? tree) = some level ∧
        error = .document (.unsupportedEmphasis level) := by
  rw [render_eq_error_iff, failure_body _ _ _ hgrown]
  constructor
  · rintro (⟨cause, hencoded, -⟩ | ⟨block, cause, -, hfound, rfl⟩)
    · cases hencoded
    · obtain ⟨level, hlevel, rfl⟩ := Option.map_eq_some_iff.mp hfound
      exact ⟨level, hlevel, rfl⟩
  · rintro ⟨level, hlevel, rfl⟩
    exact .inr ⟨[], _, rfl, congrArg (Option.map _) hlevel, rfl⟩

theorem exists_render_error_iff {tree : Tree} (hgrown : tree.Grown) :
    (∃ error, ({ options, formatCode } : Formatter).render none source tree = .error error) ↔
      ∃ id level, options.Unsupported tree id level := by
  constructor
  · rintro ⟨error, herror⟩
    obtain ⟨level, hlevel, -⟩ :=
      (render_none_eq_error_iff options formatCode source hgrown error).mp herror
    obtain ⟨id, -, hid⟩ := List.exists_of_findSome?_eq_some hlevel
    exact ⟨id, level, Options.unsupported?_eq_some_iff.mp hid⟩
  · rintro ⟨id, level, hunsupported⟩
    obtain ⟨entry, hentry, -⟩ := Option.map_eq_some_iff.mp hunsupported.node?_eq
    have hmem : id ∈ tree.root.ids :=
      hgrown.linked.ids_root_perm.mem_iff.mpr (List.mem_range.mpr (Tree.lt_of_get? hentry))
    cases hfound : tree.root.ids.findSome? (options.unsupported? tree) with
    | none =>
        rw [List.findSome?_eq_none_iff] at hfound
        exact absurd hunsupported (Options.unsupported?_eq_none_iff.mp (hfound id hmem) level)
    | some first =>
        exact ⟨_, (render_none_eq_error_iff options formatCode source hgrown _).mpr
          ⟨first, hfound, rfl⟩⟩

end Formatter

theorem FrontMatter.encoded_eq_error {metadata : Option Yaml.Value} {error : RenderError}
    (herror : FrontMatter.encoded metadata = .error error) :
    ∃ kind cause, error = .encoding kind cause := by
  cases metadata with
  | none => cases herror
  | some value =>
      unfold FrontMatter.encoded at herror
      simp only at herror
      split at herror
      · cases herror
      · cases hprint : value.print with
        | ok yaml =>
            rw [hprint] at herror
            cases herror
        | error cause =>
            rw [hprint] at herror
            cases herror
            exact ⟨_, _, rfl⟩

/-! Documents that were read. -/

theorem Formatter.failure_body_of_built (options : Options) (formatCode : CodeFormatter)
    (source : Source) {tree : Tree} (hgrown : tree.Grown)
    (hbuilt : ∀ id node, tree.node? id = some node → node.IsBuilt) :
    (({ options, formatCode } : Formatter).body source tree).failure = none := by
  have hnone : tree.root.ids.findSome? (options.unsupported? tree) = none := by
    rw [List.findSome?_eq_none_iff]
    intro id _
    rw [Options.unsupported?_eq_none_iff]
    rintro level ⟨-, hnode, hlevel⟩
    rcases hbuilt id _ hnode with rfl | rfl <;> cases hlevel
  rw [failure_body _ _ _ hgrown, hnone]
  rfl

theorem Formatter.format_eq_error (options : Options) (formatCode : CodeFormatter)
    (source : Source) {stream : EventStream} {error : FormatError}
    (herror : ({ options, formatCode } : Formatter).format source stream = .error error) :
    (∃ cause, error = .build (.frontMatter cause)) ∨
      ∃ kind cause, error = .render (.document (.encoding kind cause)) := by
  have hsafe := Parsed.ofEvents_safe source stream
  unfold Formatter.format at herror
  cases hparsed : Parsed.ofEvents source stream with
  | error cause =>
      rw [hparsed] at herror hsafe
      obtain ⟨inner, rfl⟩ := hsafe
      cases herror
      exact .inl ⟨inner, rfl⟩
  | ok parsed =>
      rw [hparsed] at herror hsafe
      obtain ⟨hgrown, hbuilt⟩ := hsafe
      have hbody := failure_body_of_built options formatCode source hgrown hbuilt
      simp only at herror
      split at herror
      · next cause hrender =>
          cases herror
          rcases (render_eq_error_iff source _ _ _ cause).mp hrender with
            ⟨inner, hencoded, rfl⟩ | ⟨block, inner, -, hfailure, -⟩
          · obtain ⟨kind, reason, rfl⟩ := FrontMatter.encoded_eq_error hencoded
            exact .inr ⟨kind, reason, rfl⟩
          · rw [hbody] at hfailure
            cases hfailure
      · cases herror

/-- Without front matter a document fails exactly when a walk comes to an emphasis of a level that
cannot be shown, and the first such level is the one named. Documents that were read have none, so
that formatting can only fail for its front matter. -/
theorem Formatter.fails_at_first_unsupported (options : Options) (formatCode : CodeFormatter)
    (source : Source) :
    let formatter : Formatter := { options, formatCode }
    (∀ tree : Tree, tree.Grown →
      ((∃ error, formatter.render none source tree = .error error) ↔
        ∃ id level, options.Unsupported tree id level) ∧
      ∀ error, formatter.render none source tree = .error error →
        ∃ before id after level, tree.root.ids = before ++ id :: after ∧
          options.Unsupported tree id level ∧
          (∀ earlier ∈ before, ∀ other, ¬options.Unsupported tree earlier other) ∧
          error = .document (.unsupportedEmphasis level)) ∧
    ∀ stream error, formatter.format source stream = .error error →
      (∃ cause, error = .build (.frontMatter cause)) ∨
        ∃ kind cause, error = .render (.document (.encoding kind cause)) := by
  intro formatter
  refine ⟨?_, ?_⟩
  · intro tree hgrown
    refine ⟨exists_render_error_iff options formatCode source hgrown, ?_⟩
    intro error herror
    obtain ⟨level, hlevel, rfl⟩ :=
      (render_none_eq_error_iff options formatCode source hgrown error).mp herror
    obtain ⟨before, id, after, hids, hid, hbefore⟩ := List.findSome?_eq_some_iff.mp hlevel
    refine ⟨before, id, after, level, hids, Options.unsupported?_eq_some_iff.mp hid, ?_, rfl⟩
    intro earlier hearlier
    exact Options.unsupported?_eq_none_iff.mp (hbefore earlier hearlier)
  · intro stream error herror
    exact format_eq_error options formatCode source herror

/-- Level nine is hidden by an image; the two of level four stand side by side in one of level
two. -/
def hiddenLevel : Tree :=
  (((((Tree.new.appended Tree.rootId .paragraph).appended 1 (.image "" "" "")).appended 2
    (.emphasis 9)).appended 1 (.emphasis 2)).appended 4 (.emphasis 4)).appended 4 (.emphasis 4)

theorem hiddenLevel_grown : hiddenLevel.Grown :=
  .append (.append (.append (.append (.append (.append .new (Tree.append?_of_lt (by decide) _))
    (Tree.append?_of_lt (by decide) _)) (Tree.append?_of_lt (by decide) _))
    (Tree.append?_of_lt (by decide) _)) (Tree.append?_of_lt (by decide) _))
    (Tree.append?_of_lt (by decide) _)

def brokenFrontMatter : EventStream :=
  [(.start .frontMatter, ⟨0, 1⟩), (.text "]", ⟨0, 1⟩), (.stop, ⟨0, 1⟩)]

theorem Formatter.hiddenLevel_fails :
    let formatter : Formatter := {}
    let shown : RenderError := .document (.unsupportedEmphasis 4)
    let broken : FormatError := .build (.frontMatter .unexpectedToken)
    hiddenLevel.Grown ∧ formatter.render none #[] hiddenLevel = .error shown ∧
      (∃ before id after, hiddenLevel.root.ids = before ++ id :: after ∧
        Options.Unsupported {} hiddenLevel id 4 ∧
        ∀ earlier ∈ before, ∀ other, ¬Options.Unsupported {} hiddenLevel earlier other) ∧
      formatter.format #[] brokenFrontMatter = .error broken ∧
      ((∃ cause, broken = .build (.frontMatter cause)) ∨
        ∃ kind cause, broken = .render (.document (.encoding kind cause))) := by
  intro formatter shown broken
  obtain ⟨hrender, hformat⟩ := Formatter.fails_at_first_unsupported {} .none #[]
  have hshown : formatter.render none #[] hiddenLevel = .error shown := by cbv
  have hbroken : formatter.format #[] brokenFrontMatter = .error broken := by cbv
  obtain ⟨before, id, after, level, hids, hunsupported, hbefore, herror⟩ :=
    (hrender hiddenLevel hiddenLevel_grown).2 shown hshown
  have hlevel : 4 = level :=
    RenderError.unsupportedEmphasis.inj (RenderError.document.inj herror)
  exact ⟨hiddenLevel_grown, hshown, ⟨before, id, after, hids, hlevel.symm ▸ hunsupported, hbefore⟩,
    hbroken, hformat _ _ hbroken⟩

end Render

end CanonicalMarkdown
