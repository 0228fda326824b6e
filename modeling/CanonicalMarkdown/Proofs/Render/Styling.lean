import CanonicalMarkdown.Proofs.Output.Entries
import CanonicalMarkdown.Proofs.Render.ListItem
import CanonicalMarkdown.Proofs.Render.Unsupported

namespace CanonicalMarkdown.Render

open Document Output

/-! A document before it is known how its emphasis is shown. -/

/-- The levels of emphasis that can be shown in either way. -/
inductive Level where
  | one
  | two
  deriving DecidableEq, Repr

def Level.number : Level → Nat
  | .one => 1
  | .two => 2

inductive Sign where
  | byte (value : UInt8)
  /-- Where emphasis of a level is entered or left. -/
  | mark (phase : Phase) (level : Level)
  deriving DecidableEq, Repr

namespace Sign

/-- A mark as one asterisk or two. -/
def inText : Sign → Bytes
  | .byte value => [value]
  | .mark _ level => List.replicate level.number 42

/-- A mark as the escape that switches italics or bold on, or everything off. -/
def onTerminal : Sign → Bytes
  | .byte value => [value]
  | .mark .enter .one => [27, 91, 51, 109]
  | .mark .enter .two => [27, 91, 49, 109]
  | .mark .leave _ => [27, 91, 48, 109]

def spell : (styled : Bool) → Sign → Bytes
  | false => inText
  | true => onTerminal

def look : Sign → UInt8
  | .byte value => value
  | .mark _ _ => 42

theorem spells (styled : Bool) : Layer.Spells look byte (spell styled) Bytes.newline where
  spell_plain _ := by cases styled <;> rfl
  spell_eq sign := by
    cases sign with
    | byte value => exact .inl (by cases styled <;> rfl)
    | mark phase level =>
        right
        cases styled <;> cases phase <;> cases level <;> decide

end Sign

theorem emphasisMark?_number (styled : Bool) (phase : Phase) (level : Level) :
    Inline.emphasisMark? styled phase level.number =
      some ((Sign.mark phase level).spell styled) := by
  cases styled <;> cases phase <;> cases level <;> decide

/-! Layouts for either style that spell the same signs. -/

def Spelt (layouts : (styled : Bool) → Layout) : Prop :=
  ∃ signs : List Sign, ∀ styled,
    (layouts styled).outcome = .all (signs.flatMap (Sign.spell styled))

theorem spelt_plain {layout : Layout} (hplain : layout.IsPlain) : Spelt fun _ => layout := by
  refine ⟨layout.output.map .byte, ?_⟩
  intro styled
  rw [(Sign.spells styled).flatMap_plain]
  exact Layout.outcome_eq_all hplain.failure_eq_none

namespace Spelt

variable {first second layouts : (styled : Bool) → Layout}

theorem append (hfirst : Spelt first) (hsecond : Spelt second) :
    Spelt fun styled => first styled ++ second styled := by
  obtain ⟨before, hbefore⟩ := hfirst
  obtain ⟨after, hafter⟩ := hsecond
  refine ⟨before ++ after, ?_⟩
  intro styled
  rw [Layout.outcome_append, hbefore, hafter, Written.all_followedBy_all, List.flatMap_append]

theorem visit (node : NodeId) (phase : Phase) (hlayouts : Spelt layouts) :
    Spelt fun styled => .visit node phase (layouts styled) :=
  hlayouts

theorem through (layer : Layer) (hwatched : layer.watched = Bytes.newline)
    (hlayouts : Spelt layouts) : Spelt fun styled => .through layer (layouts styled) := by
  obtain ⟨signs, hsigns⟩ := hlayouts
  refine ⟨layer.emitBy Sign.look .byte signs, ?_⟩
  intro styled
  have hspells : Layer.Spells Sign.look .byte (Sign.spell styled) layer.watched := by
    rw [hwatched]
    exact Sign.spells styled
  rw [Layout.outcome_through, hsigns, ← Layer.emit_flatMap hspells]
  rfl

theorem under {layers : List Layer} (hwatched : ∀ layer ∈ layers, layer.watched = Bytes.newline)
    (hlayouts : Spelt layouts) : Spelt fun styled => .under layers (layouts styled) := by
  induction layers with
  | nil => exact hlayouts
  | cons layer rest ih =>
      apply through layer (hwatched layer (by simp))
      exact ih fun inner hinner => hwatched inner (by simp [hinner])

theorem concat {layouts : (styled : Bool) → NodeId → Layout} {ids : List NodeId}
    (hlayouts : ∀ id ∈ ids, Spelt fun styled => layouts styled id) :
    Spelt fun styled => .concat (ids.map (layouts styled)) := by
  induction ids with
  | nil => exact spelt_plain Layout.isPlain_done
  | cons id rest ih =>
      apply append (hlayouts id (by simp))
      exact ih fun other hother => hlayouts other (by simp [hother])

end Spelt

/-! Only an emphasis asks for the style. -/

def Context.styled (context : Context) (styled : Bool) : Context :=
  { context with options := { context.options with terminalStyling := styled } }

namespace Renderer

variable (context : Context) (place : Place)

theorem setting_styled (element : Element) (hkind : element.kind ≠ .emphasis) (styled : Bool) :
    setting (context.styled styled) place element = setting context place element := by
  obtain ⟨id, node, children⟩ := element
  cases node with
  | emphasis level => exact absurd rfl hkind
  | _ => rfl

theorem watched_of_mem_layers (element : Element) :
    ∀ layer ∈ (setting context place element).layers, layer.watched = Bytes.newline := by
  unfold setting
  split <;> simp [Layer.watched, Layer.indent]

theorem spelt_wrap {element : Element} (hkind : element.kind ≠ .emphasis)
    {bodies : (styled : Bool) → Layout} (hbodies : Spelt bodies) :
    Spelt fun styled => (setting context place element).wrap (bodies styled) := by
  have hplain := setting_isPlain context place element hkind
  have hinner := ((spelt_plain hplain.opening).append hbodies).under
    (watched_of_mem_layers context place element)
  refine ((spelt_plain hplain.before).append hinner).append (spelt_plain ?_)
  simp

theorem spelt_marking (level : Level) (phase : Phase) :
    Spelt fun styled => marking (context.styled styled).options place level.number phase := by
  unfold marking
  by_cases hmerged : Inline.isMerged place level.number phase = true
  · simp only [hmerged, if_true]
    exact spelt_plain Layout.isPlain_done
  · refine ⟨[.mark phase level], ?_⟩
    intro styled
    have hmark : Inline.emphasisMark? (context.styled styled).options.terminalStyling phase
        level.number = some ((Sign.mark phase level).spell styled) :=
      emphasisMark?_number styled phase level
    simp only [hmerged, hmark, List.flatMap_singleton]
    exact Layout.outcome_bytes _

variable {tree : Tree} (hlinked : tree.Linked)
  (hlevels : ∀ id level, tree.isVisited id = true → tree.node? id = some (.emphasis level) →
    level = 1 ∨ level = 2)
include hlinked hlevels

theorem spelt_layoutOf {id : NodeId} (hid : id < tree.size) (hvisited : tree.isVisited id = true) :
    Spelt fun styled => (standard (context.styled styled)).layoutOf tree id := by
  refine hlinked.of_visited_children (motive := fun id =>
    Spelt fun styled => (standard (context.styled styled)).layoutOf tree id) ?_ hid hvisited
  intro id node hnode hvisited ih
  by_cases hkind : node.kind = .emphasis
  · obtain ⟨level, rfl⟩ := Node.exists_eq_emphasis hkind
    obtain ⟨level, rfl⟩ : ∃ own : Level, level = own.number := by
      rcases hlevels id level hvisited hnode with rfl | rfl
      · exact ⟨.one, rfl⟩
      · exact ⟨.two, rfl⟩
    have hinner := Spelt.concat (ih rfl)
    simp only [(standard _).layoutOf_eq hlinked hnode, around_emphasis]
    have hopening := spelt_marking context (tree.place id) level .enter
    have hclosing := spelt_marking context (tree.place id) level .leave
    exact ((hopening.append hinner).append (hclosing.visit id .leave)).visit id .enter
  · have hbody : Spelt fun styled => if node.kind.isOpaque then Layout.done else
        .concat ((tree.children id).map ((standard (context.styled styled)).layoutOf tree)) := by
      cases hisOpaque : node.kind.isOpaque with
      | true => exact spelt_plain Layout.isPlain_done
      | false => exact Spelt.concat (ih hisOpaque)
    have helement :
        (Element.mk id node (tree.elements (tree.children id))).kind ≠ .emphasis := hkind
    simp only [(standard _).layoutOf_eq hlinked hnode, around_eq _ _ _ _ helement,
      setting_styled context _ _ helement]
    have hclosing := spelt_plain (setting_isPlain context (tree.place id) _ helement).closing
    have hwhole := spelt_wrap context (tree.place id) helement hbody
    exact (hwhole.append (hclosing.visit id .leave)).visit id .enter

end Renderer

theorem FrontMatter.isPlain_layout {metadata : Option Yaml.Value} {block : Bytes}
    (hencoded : encoded metadata = .ok block) : (layout metadata).IsPlain := by
  obtain hlayout | ⟨yaml, hlayout, -⟩ := layout_eq hencoded
  · rw [hlayout]
    trivial
  · simp [hlayout, FrontMatter.block]

/-- Terminal styling changes nothing but how emphasis is shown. A document is one sequence of bytes
and marks: as text a mark is as many asterisks as its level says, and on a terminal it is an escape.
Front matter that cannot be written fails either way. -/
theorem Formatter.styling_respells_marks (hardWraps : Bool) (formatCode : CodeFormatter)
    (metadata : Option Yaml.Value) (source : Source) {tree : Tree} (hgrown : tree.Grown)
    (hlevels : ∀ id level, tree.isVisited id = true → tree.node? id = some (.emphasis level) →
      level = 1 ∨ level = 2) :
    let render := fun terminalStyling =>
      ({ options := { hardWraps, terminalStyling }, formatCode } : Formatter).render metadata
        source tree
    match FrontMatter.encoded metadata with
    | .error error => render false = .error error.inDocument ∧ render true = .error error.inDocument
    | .ok _ => ∃ signs : List Sign,
        render false = .ok (signs.flatMap Sign.inText) ∧
        render true = .ok (signs.flatMap Sign.onTerminal) := by
  intro render
  cases hencoded : FrontMatter.encoded metadata with
  | error error =>
      simp [render, render_eq, hencoded]
  | ok block =>
      let context : Context := { source, options := { hardWraps }, formatCode }
      have hlinked := hgrown.linked
      have hbody : Spelt fun terminalStyling =>
          ({ options := { hardWraps, terminalStyling }, formatCode } : Formatter).body source
            tree := by
        simp only [body_eq _ _ hgrown]
        exact Renderer.spelt_layoutOf context hlinked hlevels hlinked.root_mem hgrown.isVisited_root
      have htrimmed := hbody.through (.trim Bytes.newline 0) rfl
      have hfront := spelt_plain (FrontMatter.isPlain_layout hencoded)
      obtain ⟨signs, hsigns⟩ := (hfront.append htrimmed).append (spelt_plain Layout.isPlain_newline)
      have hrender : ∀ styled, render styled = .ok (signs.flatMap (Sign.spell styled)) := by
        intro styled
        simp only [render, render_eq_outcome, document, hsigns]
        rfl
      exact ⟨signs, hrender false, hrender true⟩

/-- A quotation that begins with emphasis of level two, and in it one of level one. -/
def quotedEmphasis : Tree :=
  ((((Tree.new.appended Tree.rootId .blockquote).appended 1 .paragraph).appended 2
    (.emphasis 2)).appended 3 (.emphasis 1)).appended 4 (.string "a")

theorem quotedEmphasis_grown : quotedEmphasis.Grown :=
  .append (.append (.append (.append (.append .new (Tree.append?_of_lt (by decide) _))
    (Tree.append?_of_lt (by decide) _)) (Tree.append?_of_lt (by decide) _))
    (Tree.append?_of_lt (by decide) _)) (Tree.append?_of_lt (by decide) _)

theorem Formatter.quotedEmphasis_respelt :
    let render := fun terminalStyling =>
      ({ options := { terminalStyling } } : Formatter).render none #[] quotedEmphasis
    quotedEmphasis.Grown ∧
      render false = .ok (Bytes.ofText "> ***a***\n") ∧
      render true = .ok (Bytes.ofText "> \x1b[1m\x1b[3ma\x1b[0m\x1b[0m\n") ∧
      ∃ signs : List Sign, render false = .ok (signs.flatMap Sign.inText) ∧
        render true = .ok (signs.flatMap Sign.onTerminal) := by
  intro render
  have hlevels : ∀ id < quotedEmphasis.size, ∀ level ∈ quotedEmphasis.emphasisLevel? id,
      level = 1 ∨ level = 2 := by decide
  have hrespelt := Formatter.styling_respells_marks false .none none #[] quotedEmphasis_grown
    fun _ _ _ hnode => Tree.forall_emphasis hlevels hnode
  exact ⟨quotedEmphasis_grown, by cbv, by cbv, hrespelt⟩

end CanonicalMarkdown.Render
