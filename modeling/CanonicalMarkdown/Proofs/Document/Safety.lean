import CanonicalMarkdown.Proofs.Document.Capture

namespace CanonicalMarkdown.Document

/-- Nodes as a builder makes them. -/
def Node.IsBuilt : Node → Prop
  | .heading level => 1 ≤ level ∧ level ≤ 6
  | .emphasis level => level = 1 ∨ level = 2
  | .text _ raw soft hard => raw = true → soft = false ∧ hard = false
  | .htmlBlock _ closure => closure = none
  | _ => True

theorem Node.IsBuilt.heading (level : HeadingLevel) : (Node.heading level.toNat).IsBuilt := by
  cases level <;> simp [Node.IsBuilt, HeadingLevel.toNat]

theorem Tree.node?_set (tree : Tree) (id : NodeId) (node : Node) (other : NodeId) :
    (tree.set id node).node? other =
      (tree.node? other).map fun own => if other = id then node else own := by
  rw [Tree.node?, Tree.get?_set, Option.map_map, Tree.node?, Option.map_map]
  rfl

namespace Builder

/-! What holds of a builder after any events, whether or not starts and ends match. -/

structure Safe (builder : Builder) : Prop where
  grown : builder.tree.Grown
  frames : ∀ frame ∈ builder.frames, ∀ id, frame.id? = some id → id < builder.tree.size
  nodes : ∀ id node, builder.tree.node? id = some node → node.IsBuilt

/-- The only failure is that of front matter. -/
def Keeps : Except BuildError Builder → Prop
  | .ok builder => builder.Safe
  | .error error => ∃ cause, error = .frontMatter cause

def Yields (outcome : Except BuildError (NodeId × Builder)) : Prop :=
  ∃ id next, outcome = .ok (id, next) ∧ next.Safe ∧ id < next.tree.size

theorem Yields.bind {outcome : Except BuildError (NodeId × Builder)}
    {next : NodeId × Builder → Except BuildError (NodeId × Builder)} (houtcome : Yields outcome)
    (hnext : ∀ id builder, builder.Safe → id < builder.tree.size → Yields (next (id, builder))) :
    Yields (outcome >>= next) := by
  obtain ⟨id, builder, rfl, hsafe, hid⟩ := houtcome
  exact hnext id builder hsafe hid

theorem Yields.keeps {outcome : Except BuildError (NodeId × Builder)}
    {next : NodeId × Builder → Except BuildError Builder} (houtcome : Yields outcome)
    (hnext : ∀ id builder, builder.Safe → id < builder.tree.size → Keeps (next (id, builder))) :
    Keeps (outcome >>= next) := by
  obtain ⟨id, builder, rfl, hsafe, hid⟩ := houtcome
  exact hnext id builder hsafe hid

theorem Keeps.bind {outcome : Except BuildError Builder}
    {next : Builder → Except BuildError Builder}
    (houtcome : Keeps outcome) (hnext : ∀ builder, builder.Safe → Keeps (next builder)) :
    Keeps (outcome >>= next) := by
  cases outcome with
  | error error => exact houtcome
  | ok builder => exact hnext builder houtcome

theorem safe_new (source : Source) : Safe { source } where
  grown := .new
  frames := by simp
  nodes id node hnode := by
    rw [Tree.node?, Tree.get?_new] at hnode
    split at hnode
    · cases hnode
      trivial
    · cases hnode

namespace Safe

variable {builder : Builder} (hsafe : builder.Safe)
include hsafe

theorem of_frames {other : Builder} (htree : other.tree = builder.tree)
    (hframes : ∀ frame ∈ other.frames, frame ∈ builder.frames) : other.Safe where
  grown := htree ▸ hsafe.grown
  frames frame hframe := htree ▸ hsafe.frames frame (hframes frame hframe)
  nodes := htree ▸ hsafe.nodes

theorem push {frame : Frame} (hid : ∀ id, frame.id? = some id → id < builder.tree.size) :
    (builder.push frame).Safe where
  grown := hsafe.grown
  frames other hother := by
    rcases List.mem_cons.mp hother with rfl | hother
    · exact hid
    · exact hsafe.frames other hother
  nodes := hsafe.nodes

theorem closeTextBlock : builder.closeTextBlock.Safe := by
  unfold Builder.closeTextBlock
  split
  · next hframes => exact hsafe.of_frames rfl fun frame hframe => by simp_all
  · exact hsafe

theorem parent_lt : builder.parent < builder.tree.size := by
  unfold Builder.parent
  cases hfound : builder.frames.findSome? Frame.id? with
  | none => exact hsafe.grown.linked.root_mem
  | some id =>
      obtain ⟨frame, hframe, hid⟩ := List.exists_of_findSome?_eq_some hfound
      exact hsafe.frames frame hframe id hid

/-! Appending. -/

theorem appendTo {parent : NodeId} {node : Node} (hparent : parent < builder.tree.size)
    (hnode : node.IsBuilt) : Yields (builder.appendTo parent node) := by
  have happend := Tree.append?_of_lt hparent node
  have hsize := Tree.size_append happend
  have hlt : builder.tree.size < (builder.tree.appended parent node).size :=
    hsize ▸ Nat.lt_succ_self _
  refine ⟨_, _, by rw [Builder.appendTo, happend], ⟨?_, ?_, ?_⟩, hlt⟩
  · exact .append hsafe.grown happend
  · intro frame hframe id hid
    exact Nat.lt_trans (hsafe.frames frame hframe id hid) hlt
  · intro id own hown
    rw [Tree.node?_append happend] at hown
    split at hown
    · cases hown
      exact hnode
    · exact hsafe.nodes id own hown

theorem append {node : Node} (hnode : node.IsBuilt) : Yields (builder.append node) :=
  hsafe.appendTo hsafe.parent_lt hnode

theorem pushNode {id : NodeId} {frame : Frame} (hframe : frame.id? = some id)
    (hid : id < builder.tree.size) : (builder.push frame).Safe := by
  apply hsafe.push
  intro other hother
  cases hframe.symm.trans hother
  exact hid

theorem inlineParent : Yields builder.inlineParent := by
  unfold Builder.inlineParent
  split
  · have hblock : Node.textBlock.IsBuilt := trivial
    apply (hsafe.append hblock).bind
    intro id next hnext hid
    exact ⟨_, _, rfl, hnext.pushNode rfl hid, hid⟩
  · exact ⟨_, _, rfl, hsafe, hsafe.parent_lt⟩

section

variable {node : Node} (hnode : node.IsBuilt)
include hnode

theorem appendInline : Yields (builder.appendInline node) := by
  apply hsafe.inlineParent.bind
  intro parent next hnext hparent
  exact hnext.appendTo hparent hnode

theorem addBlock : Keeps (builder.addBlock node) :=
  (hsafe.append hnode).keeps fun _ _ hnext _ => hnext

theorem addInline : Keeps (builder.addInline node) :=
  (hsafe.appendInline hnode).keeps fun _ _ hnext _ => hnext

theorem openBlock : Keeps (builder.openBlock node) :=
  (hsafe.append hnode).keeps fun _ _ hnext hid => hnext.pushNode rfl hid

theorem openInline : Keeps (builder.openInline node) :=
  (hsafe.appendInline hnode).keeps fun _ _ hnext hid => hnext.pushNode rfl hid

end

/-! Tags. -/

theorem pushFrame {other : Builder} {frame : Frame} (htree : other.tree = builder.tree)
    (hframes : other.frames = builder.frames) (hframe : frame.id? = none) :
    (other.push frame).Safe := by
  have hother : other.Safe := hsafe.of_frames htree fun frame hmem => hframes ▸ hmem
  apply hother.push
  intro id hid
  rw [hframe] at hid
  cases hid

theorem openTag (tag : Tag) : Keeps (builder.openTag tag) := by
  cases tag with
  | paragraph | blockquote | list | item => exact hsafe.openBlock trivial
  | heading level => exact hsafe.openBlock (.heading level)
  | emphasis => exact hsafe.openInline (.inl rfl)
  | strong => exact hsafe.openInline (.inr rfl)
  | strikethrough => exact hsafe.openInline trivial
  | link type destination title =>
      simp only [Builder.openTag]
      split
      · have hlink : (Node.autoLink destination).IsBuilt := trivial
        apply (hsafe.addInline hlink).bind
        intro next hnext
        exact hnext.pushFrame rfl rfl rfl
      · exact hsafe.openInline trivial
  | indentedCode | fencedCode | htmlBlock | image | frontMatter | footnoteDefinition | table
  | tableHead | tableRow | tableCell | definitionList | definitionTitle | definitionDetail
  | superscript | subscript => exact hsafe.pushFrame rfl rfl rfl

theorem start (tag : Tag) : Keeps (builder.start tag) := by
  unfold Builder.start
  split
  · exact hsafe.pushFrame rfl rfl rfl
  · split
    · exact hsafe.closeTextBlock.openTag tag
    · exact hsafe.openTag tag

theorem readMetadata (text : String) : Keeps (builder.readMetadata text) := by
  unfold Builder.readMetadata
  split
  · exact hsafe.of_frames rfl fun _ hframe => hframe
  · cases Yaml.Value.read text with
    | ok value => exact hsafe.of_frames rfl fun _ hframe => hframe
    | error cause => exact ⟨cause, rfl⟩

theorem closeFrame (frame : Frame) : Keeps (builder.closeFrame frame) := by
  have hlines : ({ builder with lines := [] } : Builder).Safe :=
    hsafe.of_frames rfl fun _ hframe => hframe
  cases frame with
  | node | textBlock | autoLink | transparent => exact hsafe
  | indentedCode | fencedCode => exact hlines.addBlock trivial
  | html =>
      have hblock : (Node.htmlBlock builder.lines none).IsBuilt := rfl
      exact hlines.addBlock hblock
  | image =>
      have halt : ({ builder with alt := "" } : Builder).Safe :=
        hsafe.of_frames rfl fun _ hframe => hframe
      exact halt.addInline trivial
  | frontMatter =>
      have hfront : ({ builder with frontMatter := "" } : Builder).Safe :=
        hsafe.of_frames rfl fun _ hframe => hframe
      exact hfront.readMetadata _

theorem stop : Keeps builder.stop := by
  have hclosed := hsafe.closeTextBlock
  unfold Builder.stop
  simp only
  split
  · exact hclosed
  · next frame rest hframes =>
      have hpopped : ({ builder.closeTextBlock with frames := rest } : Builder).Safe :=
        hclosed.of_frames rfl fun other hother => by simp [hframes, hother]
      exact hpopped.closeFrame frame

/-! Content. -/

theorem text (content : String) (range : Segment) : Keeps (builder.text content range) := by
  have hnode : (Node.plainText (textSegment builder.source content range)).IsBuilt :=
    fun hraw => Bool.noConfusion hraw
  unfold Builder.text
  cases builder.target with
  | tree => exact hsafe.addInline hnode
  | alt | lines | frontMatter => exact hsafe.of_frames rfl fun _ hframe => hframe
  | nowhere => exact hsafe

theorem codeSpan (code : String) : Keeps (builder.codeSpan code) := by
  unfold Builder.codeSpan
  cases builder.target with
  | tree =>
      have hspan : Node.codeSpan.IsBuilt := trivial
      apply (hsafe.appendInline hspan).keeps
      intro span next hnext hspan
      have hcode : (Node.string code).IsBuilt := trivial
      exact (hnext.appendTo hspan hcode).keeps fun _ _ hlast _ => hlast
  | alt => exact hsafe.of_frames rfl fun _ hframe => hframe
  | nowhere | lines | frontMatter => exact hsafe

theorem html (content : String) (range : Segment) : Keeps (builder.html content range) := by
  unfold Builder.html
  cases builder.target with
  | tree => exact hsafe.addInline trivial
  | alt | lines => exact hsafe.of_frames rfl fun _ hframe => hframe
  | nowhere | frontMatter => exact hsafe

theorem set {id : NodeId} {node : Node} (hnode : node.IsBuilt) :
    ({ builder with tree := builder.tree.set id node } : Builder).Safe where
  grown := .set id node hsafe.grown
  frames frame hframe other hother := by
    rw [Tree.size_set]
    exact hsafe.frames frame hframe other hother
  nodes other own hown := by
    rw [Tree.node?_set] at hown
    obtain ⟨before, hbefore, rfl⟩ := Option.map_eq_some_iff.mp hown
    split
    · exact hnode
    · exact hsafe.nodes other before hbefore

theorem lineBreak (hard : Bool) (range : Segment) : Keeps (builder.lineBreak hard range) := by
  unfold Builder.lineBreak
  cases builder.target with
  | tree =>
      apply hsafe.inlineParent.keeps
      intro parent next hnext hparent
      simp only
      split
      · next id node _ hbroken =>
          obtain ⟨own, -, hbroken⟩ := Option.bind_eq_some_iff.mp hbroken
          have hnode : node.IsBuilt := by
            unfold broken? at hbroken
            split at hbroken
            · cases hbroken
              exact fun hraw => Bool.noConfusion hraw
            · cases hbroken
          exact hnext.set hnode
      · have hnode : (Node.lineBreak range.start hard).IsBuilt :=
          fun hraw => Bool.noConfusion hraw
        exact (hnext.appendTo hparent hnode).keeps fun _ _ hlast _ => hlast
  | alt => exact hsafe.of_frames rfl fun _ hframe => hframe
  | nowhere | lines | frontMatter => exact hsafe

theorem rule : Keeps builder.rule := by
  unfold Builder.rule
  split
  · exact hsafe.closeTextBlock.addBlock trivial
  · exact hsafe

theorem raw (range : Segment) : Keeps (builder.raw range) := by
  have hnode : (Node.rawText range).IsBuilt := fun _ => ⟨rfl, rfl⟩
  unfold Builder.raw
  split
  · exact hsafe.addInline hnode
  · exact hsafe

theorem event (event : Event) (range : Segment) : Keeps (builder.event event range) := by
  cases event with
  | start tag => exact hsafe.start tag
  | stop => exact hsafe.stop
  | text content => exact hsafe.text content range
  | code content => exact hsafe.codeSpan content
  | html content | inlineHtml content => exact hsafe.html content range
  | softBreak => exact hsafe.lineBreak false range
  | hardBreak => exact hsafe.lineBreak true range
  | rule => exact hsafe.rule
  | footnoteReference | inlineMath | displayMath | taskMarker => exact hsafe.raw range

theorem events (stream : EventStream) : Keeps (builder.events stream) := by
  induction stream generalizing builder with
  | nil => exact hsafe
  | cons head rest ih => exact (hsafe.event head.1 head.2).bind fun next hnext => ih hnext

end Safe

end Builder

/-- Reading fails for its front matter alone, and what it makes is a tree of nodes as they are
built. -/
theorem Parsed.ofEvents_safe (source : Source) (stream : EventStream) :
    match Parsed.ofEvents source stream with
    | .ok parsed => parsed.tree.Grown ∧
        ∀ id node, parsed.tree.node? id = some node → node.IsBuilt
    | .error error => ∃ cause, error = .frontMatter cause := by
  have hevents := (Builder.safe_new source).events stream
  unfold Parsed.ofEvents
  cases hbuilder : Builder.events stream { source } with
  | error error =>
      rw [hbuilder] at hevents
      exact hevents
  | ok builder =>
      rw [hbuilder] at hevents
      exact ⟨hevents.grown, hevents.nodes⟩

end CanonicalMarkdown.Document
