import CanonicalMarkdown.Proofs.Render.Credit
import CanonicalMarkdown.Proofs.Render.Emphasis
import CanonicalMarkdown.Proofs.Render.Escapes

namespace CanonicalMarkdown

open Document Output

/-- No emphasis stands inside one of another level. -/
def Document.Tree.Unnested (tree : Tree) : Prop :=
  ∀ id level outer, tree.isVisited id = true → tree.node? id = some (.emphasis level) →
    .emphasis outer ∈ (tree.place id).ancestors → outer = level

namespace Render

/-! A terminal that reads a document byte by byte. -/

/-- What a complete escape asks for: that a level is switched on, or everything off. -/
inductive Signal where
  | on (level : Nat)
  | off
  deriving DecidableEq, Repr

/-- Italics for level one, bold for level two, underlining for level three. -/
def Signal.codes : List (Bytes × Signal) :=
  [([27, 91, 51, 109], .on 1), ([27, 91, 49, 109], .on 2), ([27, 91, 52, 109], .on 3),
    ([27, 91, 48, 109], .off)]

structure Screen where
  /-- The beginning of an escape that is not complete. -/
  pending : Bytes := []
  /-- The levels that are shown: those switched on since everything was last switched off. -/
  lit : List Nat := []
  /-- The levels that went off together with one that was opened after them. -/
  dimmed : List Nat := []
  deriving DecidableEq, Repr

namespace Screen

/-- The levels that have been switched on and not been ended, the last one first. -/
def opened (screen : Screen) : List Nat := screen.lit ++ screen.dimmed

/-- Switching off ends the level that was opened last, and dims the others. -/
def heed (screen : Screen) : Signal → Screen
  | .on level => { lit := level :: screen.lit, dimmed := screen.dimmed }
  | .off => { dimmed := screen.opened.tail }

def read (screen : Screen) (byte : UInt8) : Screen :=
  let seen := if byte = Inline.escapeByte then [byte] else screen.pending ++ [byte]
  match Signal.codes.lookup seen with
  | some signal => screen.heed signal
  | none => { screen with pending := if Signal.codes.any (seen.isPrefixOf ·.1) then seen else [] }

def after (screen : Screen) (data : Bytes) : Screen := data.foldl read screen

theorem read_of_ne {screen : Screen} (hpending : screen.pending = []) {byte : UInt8}
    (hbyte : byte ≠ Inline.escapeByte) : screen.read byte = screen := by
  obtain ⟨pending, lit, dimmed⟩ := screen
  obtain rfl : pending = [] := hpending
  have hcode : Signal.codes.lookup [byte] = none := by simp [Signal.codes, List.lookup]
  have hbegun : Signal.codes.any (([byte] : Bytes).isPrefixOf ·.1) = false := by
    simpa [Signal.codes, List.isPrefixOf, Inline.escapeByte] using hbyte
  simp [read, hbyte, hcode, hbegun]

theorem after_code {screen : Screen} (hpending : screen.pending = []) {code : Bytes}
    {signal : Signal} (hcode : (code, signal) ∈ Signal.codes) :
    screen.after code = screen.heed signal := by
  obtain ⟨pending, lit, dimmed⟩ := screen
  obtain rfl : pending = [] := hpending
  simp only [Signal.codes, List.mem_cons, Prod.mk.injEq, List.not_mem_nil, or_false] at hcode
  rcases hcode with ⟨rfl, rfl⟩ | ⟨rfl, rfl⟩ | ⟨rfl, rfl⟩ | ⟨rfl, rfl⟩ <;>
    simp [after, read, Signal.codes, List.lookup, List.isPrefixOf, Inline.escapeByte, heed, opened]

def step (screen : Screen) (entry : Entry) : Option Screen := some (screen.read entry.byte)

theorem foldlM_step (screen : Screen) (entries : List Entry) :
    entries.foldlM step screen = some (screen.after (entries.map Entry.byte)) := by
  induction entries generalizing screen with
  | nil => rfl
  | cons entry rest ih => exact ih (screen.read entry.byte)

end Screen

/-! What is shown where a byte is written. -/

/-- The screen has read whole escapes, and these levels have been opened. -/
structure Screen.At (tree : Tree) (opened : List Nat) (screen : Screen) : Prop where
  pending_eq : screen.pending = []
  opened_eq : screen.opened = opened
  dimmed_eq : tree.Unnested → screen.dimmed = []

/-- The levels are those of the emphasis around the node that writes, unless it is an emphasis. -/
def Due (tree : Tree) (author : Option NodeId) (opened : List Nat) : Prop :=
  ∀ id node, author = some id → tree.node? id = some node → node.kind ≠ .emphasis →
    InEffect tree id opened

/-- Whoever writes is at most an emphasis. -/
def Mute (tree : Tree) (author : Option NodeId) : Prop :=
  ∀ id node, author = some id → tree.node? id = some node → node.kind = .emphasis

theorem mute_none (tree : Tree) : Mute tree none := by
  intro id node hauthor
  cases hauthor

theorem mute_of_emphasis {tree : Tree} {id : NodeId} {level : Nat}
    (hnode : tree.node? id = some (.emphasis level)) (phase : Phase) :
    Mute tree (phase.author id) := by
  intro own node hauthor hown
  cases phase with
  | leave => cases hauthor
  | enter =>
      obtain rfl : id = own := Option.some.inj hauthor
      cases hnode.symm.trans hown
      rfl

theorem Mute.due {tree : Tree} {author : Option NodeId} (hmute : Mute tree author)
    (opened : List Nat) : Due tree author opened := by
  intro id node hauthor hnode hkind
  exact absurd (hmute id node hauthor hnode) hkind

/-- A line ends outside of escapes, and a node other than an emphasis writes where the levels of the
emphasis around it have been opened. -/
structure Shows (tree : Tree) (screen : Screen) (entry : Entry) : Prop where
  newline : entry.byte = Bytes.newline → screen.pending = []
  author : ∀ id node, entry.author = some id → tree.node? id = some node →
    node.kind ≠ .emphasis → ∃ opened, screen.At tree opened ∧ InEffect tree id opened

section

variable {tree : Tree} {opened : List Nat} {screen next : Screen}

theorem Screen.At.shows (hat : screen.At tree opened) {author : Option NodeId}
    (hdue : Due tree author opened) (byte : UInt8) : Shows tree screen ⟨byte, author⟩ where
  newline _ := hat.pending_eq
  author id node hauthor hnode hkind := ⟨opened, hat, hdue id node hauthor hnode hkind⟩

/-- Bytes that are no escapes change nothing. -/
theorem runs_plain {Holds : Screen → Entry → Prop} (hpending : screen.pending = [])
    {entries : List Entry} (hholds : ∀ entry ∈ entries, Holds screen entry)
    (hfree : ∀ entry ∈ entries, entry.byte ≠ Inline.escapeByte) :
    Runs Screen.step Holds screen entries screen := by
  induction entries with
  | nil => exact .done screen
  | cons entry rest ih =>
      rw [List.forall_mem_cons] at hholds hfree
      refine .turn hholds.1 ?_ (ih hholds.2 hfree.2)
      rw [Screen.step, Screen.read_of_ne hpending hfree.1]

/-- Nothing is asked of the bytes of an escape but that they are not newlines. -/
theorem runs_escape {author : Option NodeId} {data : Bytes} (hnewline : Bytes.newline ∉ data)
    (hmute : Mute tree author) :
    Runs Screen.step (Shows tree) screen (data.map (⟨·, author⟩)) (screen.after data) := by
  induction data generalizing screen with
  | nil => exact .done screen
  | cons byte rest ih =>
      rw [List.mem_cons, not_or] at hnewline
      refine .turn ⟨?_, ?_⟩ rfl (ih hnewline.2)
      · intro hbyte
        exact absurd hbyte.symm hnewline.1
      · intro id node hid hnode hkind
        exact absurd (hmute id node hid hnode) hkind

end

/-! Layers leave what is shown as it is. -/

section

variable {tree : Tree} {screen stop : Screen} {entries : List Entry}

theorem Shows.read_newline {entry : Entry} (hshows : Shows tree screen entry)
    (hbyte : entry.byte = Bytes.newline) : screen.read entry.byte = screen := by
  apply Screen.read_of_ne (hshows.newline hbyte)
  rw [hbyte]
  decide

theorem runs_lead {marker : Bytes} (hmarker : Inline.escapeByte ∉ marker)
    (hpending : screen.pending = []) (line : Bytes) :
    Runs Screen.step (Shows tree) screen ((Layer.lead marker line).map Entry.plain) screen := by
  have hsubset : Layer.lead marker line ⊆ marker := by
    unfold Layer.lead
    split
    · exact (List.rdropWhile_prefix _ _).subset
    · exact List.Subset.refl marker
  apply runs_plain hpending
  · intro entry hentry
    obtain ⟨byte, -, rfl⟩ := List.mem_map.mp hentry
    exact ⟨fun _ => hpending, fun id node hauthor => by cases hauthor⟩
  · intro entry hentry
    obtain ⟨byte, hbyte, rfl⟩ := List.mem_map.mp hentry
    rintro rfl
    exact hmarker (hsubset hbyte)

theorem runs_markedBy {marker : Bytes} (hmarker : Inline.escapeByte ∉ marker)
    {atLineStart : Bool} (hstart : atLineStart = true → screen.pending = [])
    (hruns : Runs Screen.step (Shows tree) screen entries stop) :
    Runs Screen.step (Shows tree) screen
      (Layer.markedBy Entry.byte Entry.plain marker atLineStart entries) stop := by
  -- A marker is put in at the start or after a newline, and so never into an escape.
  induction hruns generalizing atLineStart with
  | done state => exact .done state
  | @turn state next stop entry rest hshows hnext _ ih =>
      have hlead : Runs Screen.step (Shows tree) state
          (if atLineStart then (Layer.lead marker [entry.byte]).map Entry.plain else []) state := by
        split
        · next hat => exact runs_lead hmarker (hstart hat) _
        · exact .done state
      refine hlead.append (.turn hshows hnext (ih ?_))
      intro hbyte
      obtain rfl := Option.some.inj hnext
      rw [hshows.read_newline (eq_of_beq hbyte)]
      exact hshows.newline (eq_of_beq hbyte)

theorem runs_rdropWhile (hruns : Runs Screen.step (Shows tree) screen entries stop) :
    Runs Screen.step (Shows tree) screen (entries.rdropWhile (·.byte == Bytes.newline)) stop := by
  induction entries using List.reverseRecOn generalizing stop with
  | nil => exact hruns
  | append_singleton entries last ih =>
      rw [List.rdropWhile_concat]
      split
      · next hlast =>
          obtain ⟨middle, hfirst, hrest⟩ := hruns.of_append
          cases hrest with
          | turn hshows hnext hdone =>
              cases hdone
              obtain rfl := Option.some.inj hnext
              rw [hshows.read_newline (eq_of_beq hlast)]
              exact ih hfirst
      · exact hruns

theorem runs_emitBy {layer : Layer} (hlayer : layer.EscapeFree) (hpending : screen.pending = [])
    (hruns : Runs Screen.step (Shows tree) screen entries stop) :
    Runs Screen.step (Shows tree) screen (layer.emitBy Entry.byte Entry.plain entries) stop := by
  cases layer with
  | margin marker atLineStart => exact runs_markedBy hlayer (fun _ => hpending) hruns
  | trim byte pending =>
      obtain ⟨rfl, rfl⟩ := hlayer
      exact runs_rdropWhile hruns

end

/-! Layouts that lead from one list of open levels to another. -/

structure Shown (tree : Tree) (start : List Nat) (layout : Layout) (stop : List Nat) : Prop where
  failure_eq : layout.failure = none
  runs : ∀ author screen, Due tree author start → screen.At tree start →
    ∃ next : Screen, next.At tree stop ∧ Due tree (layout.authorAfter author) stop ∧
      Runs Screen.step (Shows tree) screen (layout.credited author) next

theorem shown_done (tree : Tree) (opened : List Nat) : Shown tree opened .done opened where
  failure_eq := rfl
  runs _ screen hdue hat := ⟨screen, hat, hdue, .done screen⟩

namespace Shown

variable {tree : Tree} {start middle stop : List Nat} {first second layout : Layout}

theorem append (hfirst : Shown tree start first middle) (hsecond : Shown tree middle second stop) :
    Shown tree start (first ++ second) stop where
  failure_eq := by rw [Layout.failure_append, hfirst.failure_eq, hsecond.failure_eq]; rfl
  runs author screen hdue hat := by
    obtain ⟨next, hnext, hbetween, hbefore⟩ := hfirst.runs author screen hdue hat
    obtain ⟨last, hlast, hend, hafter⟩ := hsecond.runs _ next hbetween hnext
    rw [Layout.authorAfter_append hfirst.failure_eq, Layout.credited_append hfirst.failure_eq]
    exact ⟨last, hlast, hend, hbefore.append hafter⟩

theorem visit (id : NodeId) (phase : Phase) (hdue : Due tree (phase.author id) start)
    (hlayout : Shown tree start layout stop) : Shown tree start (.visit id phase layout) stop where
  failure_eq := hlayout.failure_eq
  runs _ screen _ hat := hlayout.runs _ screen hdue hat

theorem through (layer : Layer) (hlayer : layer.EscapeFree)
    (hlayout : Shown tree start layout stop) : Shown tree start (.through layer layout) stop where
  failure_eq := by rw [Layout.failure_through, hlayout.failure_eq]
  runs author screen hdue hat := by
    obtain ⟨next, hnext, hend, hruns⟩ := hlayout.runs author screen hdue hat
    have hemitted := runs_emitBy hlayer hat.pending_eq hruns
    rw [Layout.through, Layout.credited, Layout.credited, List.append_nil]
    exact ⟨next, hnext, hend, hemitted⟩

theorem under {layers : List Layer} (hlayers : ∀ layer ∈ layers, layer.EscapeFree)
    (hlayout : Shown tree start layout stop) : Shown tree start (.under layers layout) stop := by
  induction layers with
  | nil => exact hlayout
  | cons layer rest ih =>
      rw [List.forall_mem_cons] at hlayers
      exact (ih hlayers.2).through layer hlayers.1

end Shown

theorem Layout.EscapeFree.shown {layout : Layout} (hfree : layout.EscapeFree) (tree : Tree)
    (opened : List Nat) : Shown tree opened layout opened := by
  induction layout with
  | done => exact shown_done tree opened
  | fail error => exact hfree.elim
  | visit node phase rest _ => exact hfree.elim
  | write chunk rest ih =>
      have hwrite : Shown tree opened (.write chunk .done) opened := by
        refine ⟨by rw [Layout.failure_write]; rfl, ?_⟩
        intro author screen hdue hat
        refine ⟨screen, hat, hdue, ?_⟩
        rw [Layout.credited, Layout.credited, List.append_nil]
        apply runs_plain hat.pending_eq
        · intro entry hentry
          obtain ⟨byte, -, rfl⟩ := List.mem_map.mp hentry
          exact hat.shows hdue byte
        · intro entry hentry
          obtain ⟨byte, hbyte, rfl⟩ := List.mem_map.mp hentry
          rintro rfl
          exact hfree.1 hbyte
      exact hwrite.append (ih hfree.2)
  | within layer body rest ihBody ihRest =>
      exact ((ihBody hfree.2.1).through layer hfree.1).append (ihRest hfree.2.2)

theorem shown_wrap {setting : Renderer.Setting} (hfree : setting.EscapeFree) {tree : Tree}
    {opened : List Nat} {body : Layout} (hbody : Shown tree opened body opened) :
    Shown tree opened (setting.wrap body) opened := by
  have hinner := ((hfree.opening.shown tree opened).append hbody).under hfree.layers
  have hend : (Layout.when setting.isEnded .newline).EscapeFree := by simp
  exact ((hfree.before.shown tree opened).append hinner).append (hend.shown tree opened)

/-! Emphasis switches its level on, and ends it by switching everything off. -/

def Phase.signal (level : Nat) : Phase → Signal
  | .enter => .on level
  | .leave => .off

theorem exists_terminalCode {level : Nat} (hlevel : 1 ≤ level ∧ level ≤ 3) (phase : Phase) :
    ∃ mark, Inline.emphasisMark? true phase level = some mark ∧ Bytes.newline ∉ mark ∧
      (mark, phase.signal level) ∈ Signal.codes := by
  obtain ⟨hone, hthree⟩ := hlevel
  cases phase with
  | leave =>
      have hreset : (Inline.terminalReset, Signal.off) ∈ Signal.codes := by decide
      exact ⟨Inline.terminalReset, rfl, by decide, hreset⟩
  | enter =>
      interval_cases level
      · exact ⟨Inline.terminalCode "3", rfl, by decide, by decide⟩
      · exact ⟨Inline.terminalCode "1", rfl, by decide, by decide⟩
      · exact ⟨Inline.terminalCode "4", rfl, by decide, by decide⟩

theorem Screen.At.heed {tree : Tree} {start next : List Nat} {screen : Screen}
    (hat : screen.At tree start) {id : NodeId} {phase : Phase} {level : Nat}
    (hopen : Turn.openAfter start ⟨id, phase, some level⟩ = some next)
    (hends : tree.Unnested → phase = .leave → next = []) :
    (screen.heed (phase.signal level)).At tree next := by
  cases phase with
  | enter =>
      obtain rfl : level :: start = next := Option.some.inj hopen
      exact ⟨rfl, congrArg (level :: ·) hat.opened_eq, hat.dimmed_eq⟩
  | leave =>
      have htail : screen.opened.tail = next := by
        simp only [Turn.openAfter] at hopen
        split at hopen
        · rw [hat.opened_eq]
          exact Option.some.inj hopen
        · cases hopen
      exact ⟨rfl, htail, fun hunnested => htail.trans (hends hunnested rfl)⟩

/-- From the level being the one opened last, its end leads back to the levels below it. Where no
other level is around, none is left to dim. -/
theorem InEffect.carried_eq_nil {tree : Tree} {id : NodeId} {base : List Nat} {level : Nat}
    (heffect : InEffect tree id base) (hlinked : tree.Linked) (hinline : tree.InlineBelow)
    (hnode : tree.node? id = some (.emphasis level)) (hvisited : tree.isVisited id = true)
    (hunnested : tree.Unnested)
    (hmerged : Inline.isMerged (tree.place id) level .leave = false) :
    carried base (some (.emphasis level)) (tree.place id).next = [] := by
  rw [Inline.isMerged.eq_def, Bool.or_eq_false_iff,
    heffect.any_inlineAncestors hlinked hinline hnode, decide_eq_false_iff_not] at hmerged
  rw [carried_left_emphasis, if_neg (by simp [hmerged.1]), List.eq_nil_iff_forall_not_mem]
  intro outer houter
  have hsame := hunnested id level outer hvisited hnode ((heffect.mem_iff outer).mp houter)
  exact hmerged.2 (hsame ▸ houter)

namespace Renderer

variable {context : Context} {tree : Tree}

theorem shown_marking (hstyled : context.options.terminalStyling = true) {id : NodeId}
    {level : Nat} (hnode : tree.node? id = some (.emphasis level))
    (hlevel : 1 ≤ level ∧ level ≤ 3) {phase : Phase} {start next stop : List Nat} {rest : Layout}
    (hopen : Turn.openAfter start ⟨id, phase, dueDelimiter tree id phase⟩ = some next)
    (hends : tree.Unnested → phase = .leave →
      Inline.isMerged (tree.place id) level phase = false → next = [])
    (hrest : Shown tree next rest stop) :
    Shown tree start
      (.visit id phase (marking context.options (tree.place id) level phase ++ rest)) stop := by
  have hmute := mute_of_emphasis hnode phase
  rw [dueDelimiter_emphasis hnode] at hopen
  rw [marking]
  split
  · next hmerged =>
      rw [hmerged, if_pos rfl] at hopen
      obtain rfl : start = next := Option.some.inj hopen
      exact hrest.visit id phase (hmute.due start)
  · next hmerged =>
      rw [if_neg hmerged] at hopen
      obtain ⟨mark, hmark, hnewline, hcode⟩ := exists_terminalCode hlevel phase
      rw [hstyled, hmark]
      refine ⟨by simpa [Layout.bytes] using hrest.failure_eq, ?_⟩
      intro author screen _ hat
      have hread := hat.heed hopen fun hunnested hphase =>
        hends hunnested hphase (by simpa using hmerged)
      rw [← Screen.after_code hat.pending_eq hcode] at hread
      obtain ⟨last, hlast, hend, hruns⟩ := hrest.runs _ _ (hmute.due next) hread
      exact ⟨last, hlast, hend, (runs_escape hnewline hmute).append hruns⟩

section

variable (hstyled : context.options.terminalStyling = true) (hlinked : tree.Linked)
  (hinline : tree.InlineBelow)
  (hlevels : ∀ id level, tree.isVisited id = true → tree.node? id = some (.emphasis level) →
    1 ≤ level ∧ level ≤ 3)
  (hfree : ∀ id node, tree.node? id = some node → context.EscapeFree node)

/-- From what is carried over to the node to what it leaves for the next. -/
def ShownAt (context : Context) (tree : Tree) (id : NodeId) : Prop :=
  ∀ node base, tree.node? id = some node → InEffect tree id base →
    Shown tree (carried base (tree.place id).previous.head? (some node))
      ((standard context).layoutOf tree id) (carried base (some node) (tree.place id).next)

include hlinked

theorem shown_children {id : NodeId} {node : Node} {base : List Nat}
    (hnode : tree.node? id = some node) (heffect : InEffect tree id base)
    (hbelow : ∀ child ∈ tree.children id, ShownAt context tree child) :
    Shown tree (inside base node)
      (.concat ((tree.children id).map ((standard context).layoutOf tree))) (inside base node) := by
  have hall : tree.children id = [] ++ tree.children id := rfl
  refine lead_siblings hlinked (fun start ids stop =>
    Shown tree start (.concat (ids.map ((standard context).layoutOf tree))) stop)
    (shown_done tree) ?_ hnode ?_ hall
  · intro start middle stop child rest hfirst hrest
    rw [List.map_singleton, Layout.concat, Layout.concat, Layout.append_done] at hfirst
    exact hfirst.append hrest
  · intro child hchild own hown
    rw [List.map_singleton, Layout.concat, Layout.concat, Layout.append_done]
    exact hbelow child hchild own _ hown
      (heffect.child hlinked hnode (hlinked.mem_children.mp hchild))

include hfree

include hstyled hinline hlevels

theorem shownAt {id : NodeId} (hid : id < tree.size) (hvisited : tree.isVisited id = true) :
    ShownAt context tree id := by
  refine hlinked.of_visited_children (motive := ShownAt context tree) ?_ hid hvisited
  intro id node hnode hvisited ih own base hown heffect
  cases hnode.symm.trans hown
  have henter := heffect.enter hlinked hinline hnode
  have hleave := heffect.leave hlinked hinline hnode
  rw [(standard context).layoutOf_eq hlinked hnode]
  by_cases hkind : node.kind = .emphasis
  · obtain ⟨level, rfl⟩ := Node.exists_eq_emphasis hkind
    have hlevel := hlevels id level hvisited hnode
    have hinner := shown_children hlinked hnode heffect (ih rfl)
    have hlast := shown_marking hstyled hnode hlevel hleave
      (fun hunnested _ => heffect.carried_eq_nil hlinked hinline hnode hvisited hunnested)
      (shown_done tree _)
    rw [Layout.append_done] at hlast
    rw [around_emphasis, Layout.append_assoc]
    exact shown_marking hstyled hnode hlevel henter (fun _ hphase => by cases hphase)
      (hinner.append hlast)
  · have hlevel := Node.emphasisLevel?_eq_none hkind
    have hsetting := setting_escapeFree_of_node hlinked hfree hnode hkind
    have hdue : Due tree (some id) base := by
      intro own inner hown _ _
      cases hown
      exact heffect
    have hbody : Shown tree base (if node.kind.isOpaque then .done
        else .concat ((tree.children id).map ((standard context).layoutOf tree))) base := by
      split
      · exact shown_done tree base
      · next hisOpaque =>
          have hinner := shown_children hlinked hnode heffect (ih (by simpa using hisOpaque))
          rwa [inside_of_ne_emphasis hlevel] at hinner
    have hclosing := (hsetting.closing.shown tree base).visit id .leave ((mute_none tree).due base)
    rw [carried_right_of_ne_emphasis hlevel, carried_left_of_ne_emphasis hlevel,
      around_eq context (tree.place id) (.mk id node _) _ hkind]
    exact ((shown_wrap hsetting hbody).append hclosing).visit id .enter hdue

end

end Renderer

/-- What is shown matches what has been opened until a level that was opened later has ended. -/
theorem InEffect.lit_iff {tree : Tree} {id : NodeId} {screen : Screen}
    (heffect : InEffect tree id screen.opened) :
    (∀ level, level ∈ screen.lit ↔ .emphasis level ∈ (tree.place id).ancestors) ↔
      screen.dimmed = [] := by
  have hdisjoint := List.disjoint_of_nodup_append heffect.nodup
  constructor
  · intro hlit
    rw [List.eq_nil_iff_forall_not_mem]
    intro level hdimmed
    have hopened : level ∈ screen.opened := List.mem_append_right _ hdimmed
    exact hdisjoint ((hlit level).mpr ((heffect.mem_iff level).mp hopened)) hdimmed
  · intro hdimmed level
    rw [← heffect.mem_iff, Screen.opened, hdimmed, List.append_nil]

theorem Formatter.shown_document {formatter : Formatter} (source : Source)
    (hbuiltIn : formatter.overrides = .empty) (hstyled : formatter.options.terminalStyling = true)
    {metadata : Option Yaml.Value} {block : Bytes} {tree : Tree} (hgrown : tree.Grown)
    (hinline : tree.InlineBelow)
    (hlevels : ∀ id level, tree.isVisited id = true → tree.node? id = some (.emphasis level) →
      1 ≤ level ∧ level ≤ 3)
    (hfree : ∀ id node, tree.node? id = some node →
      (formatter.renderer source).context.EscapeFree node)
    (hencoded : FrontMatter.encoded metadata = .ok block) (hblock : Inline.escapeByte ∉ block) :
    Shown tree [] (formatter.document metadata source tree) [] := by
  have hlinked := hgrown.linked
  obtain ⟨root, hroot⟩ := Tree.exists_node?_of_lt hlinked.root_mem
  have hstandard : formatter.renderer source =
      Renderer.standard (formatter.renderer source).context := by
    rw [renderer, hbuiltIn]
    rfl
  have hshown := Renderer.shownAt hstyled hlinked hinline hlevels hfree hlinked.root_mem
    hgrown.isVisited_root root [] hroot (inEffect_root hgrown)
  have hend : carried [] (some root) Place.root.next = [] := carried_none [] (some root)
  rw [hgrown.place_root, hend, ← hstandard, ← body_eq _ _ hgrown] at hshown
  have hfront := (FrontMatter.escapeFree_layout hencoded hblock).shown tree []
  have htrimmed := hshown.through (.trim Bytes.newline 0) ⟨rfl, rfl⟩
  exact (hfront.append htrimmed).append (Layout.escapeFree_newline.shown tree [])

/-- On a terminal, the levels of the emphasis around a node are those that are open where it writes:
each has been switched on, and not been ended. The node is shown in its own style if and only if
none of them is dimmed, since the end of emphasis inside of them switches everything off. So all
is shown in its own style where emphasis of one level never stands inside emphasis of another. -/
theorem Formatter.shown_in_own_style_iff (hardWraps : Bool) (formatCode : CodeFormatter)
    (metadata : Option Yaml.Value) (source : Source) {block : Bytes} {tree : Tree}
    (hgrown : tree.Grown) (hinline : tree.InlineBelow)
    (hlevels : ∀ id level, tree.isVisited id = true → tree.node? id = some (.emphasis level) →
      1 ≤ level ∧ level ≤ 3)
    (hfree : ∀ id node, tree.node? id = some node →
      ({ source, formatCode } : Context).EscapeFree node)
    (hencoded : FrontMatter.encoded metadata = .ok block) (hblock : Inline.escapeByte ∉ block) :
    let formatter : Formatter := { options := { hardWraps, terminalStyling := true }, formatCode }
    let entries := (formatter.document metadata source tree).credited none
    formatter.render metadata source tree = .ok (entries.map Entry.byte) ∧
    ∀ before entry after id node, entries = before ++ entry :: after → entry.author = some id →
      tree.node? id = some node → node.kind ≠ .emphasis →
      let screen := ({} : Screen).after (before.map Entry.byte)
      let around := (tree.place id).ancestors
      screen.opened.Nodup ∧ (∀ level, level ∈ screen.opened ↔ .emphasis level ∈ around) ∧
      ((∀ level, level ∈ screen.lit ↔ .emphasis level ∈ around) ↔ screen.dimmed = []) ∧
      (tree.Unnested → screen.dimmed = []) := by
  intro formatter entries
  have hdocument : Shown tree [] (formatter.document metadata source tree) [] :=
    shown_document source rfl rfl hgrown hinline hlevels hfree hencoded hblock
  refine ⟨?_, ?_⟩
  · rw [render_eq_outcome, Layout.outcome_eq_all hdocument.failure_eq]
    exact congrArg _ (Layout.map_byte_credited hdocument.failure_eq none).symm
  · intro before entry after id node hsplit hauthor hnode hkind screen around
    obtain ⟨last, -, -, hruns⟩ := hdocument.runs none {} ((mute_none tree).due [])
      ⟨rfl, rfl, fun _ => rfl⟩
    rw [show (formatter.document metadata source tree).credited none = _ from hsplit] at hruns
    obtain ⟨own, hown, hshows⟩ := hruns.of_split
    rw [Screen.foldlM_step] at hown
    obtain rfl : screen = own := Option.some.inj hown
    obtain ⟨opened, hat, heffect⟩ := hshows.author id node hauthor hnode hkind
    rw [← hat.opened_eq] at heffect
    exact ⟨heffect.nodup, heffect.mem_iff, heffect.lit_iff, hat.dimmed_eq⟩

/-- A paragraph that begins with emphasis. -/
def leadingEmphasis : Tree :=
  (((Tree.new.appended Tree.rootId .paragraph).appended 1 (.emphasis 1)).appended 2
    (.plainText ⟨0, 1⟩)).appended 1 (.plainText ⟨1, 2⟩)

theorem leadingEmphasis_grown : leadingEmphasis.Grown :=
  .append (.append (.append (.append .new (Tree.append?_of_lt (by decide) _))
    (Tree.append?_of_lt (by decide) _)) (Tree.append?_of_lt (by decide) _))
    (Tree.append?_of_lt (by decide) _)

theorem leadingEmphasis_unnested : leadingEmphasis.Unnested := by
  intro id level outer _ hnode houter
  have hall : ∀ id < leadingEmphasis.size, ∀ level ∈ leadingEmphasis.emphasisLevel? id,
      ∀ node ∈ (leadingEmphasis.place id).ancestors, node.kind ≠ .emphasis := by decide
  have hlevel : level ∈ leadingEmphasis.emphasisLevel? id := by
    rw [Tree.emphasisLevel?, hnode]
    rfl
  exact absurd rfl (hall id (Tree.lt_of_node? hnode) level hlevel _ houter)

theorem Formatter.leadingEmphasis_shown :
    let formatter : Formatter := { options := { terminalStyling := true } }
    let entries := (formatter.document none #[97, 98] leadingEmphasis).credited none
    let screen := ({} : Screen).after ((entries.take 4).map Entry.byte)
    leadingEmphasis.Grown ∧ leadingEmphasis.InlineBelow ∧ leadingEmphasis.Unnested ∧
      formatter.render none #[97, 98] leadingEmphasis = .ok (entries.map Entry.byte) ∧
      entries = entries.take 4 ++ ⟨97, some 3⟩ :: entries.drop 5 ∧
      ∀ level, level ∈ screen.lit ↔ .emphasis level ∈ (leadingEmphasis.place 3).ancestors := by
  intro formatter entries screen
  have hinline : leadingEmphasis.InlineBelow := Tree.inlineBelow_of_forall (by decide)
  have hlevels : ∀ id < leadingEmphasis.size, ∀ level ∈ leadingEmphasis.emphasisLevel? id,
      1 ≤ level ∧ level ≤ 3 := by decide
  have hfree : ∀ id < leadingEmphasis.size, ∀ node ∈ leadingEmphasis.node? id,
      ({ source := #[97, 98] } : Context).EscapeFree node := by decide +kernel
  obtain ⟨hrender, hshown⟩ := Formatter.shown_in_own_style_iff false .none none #[97, 98]
    leadingEmphasis_grown hinline (fun _ _ _ hnode => Tree.forall_emphasis hlevels hnode)
    (fun _ _ hnode => Context.forall_escapeFree hfree hnode) rfl List.not_mem_nil
  have hsplit : entries = entries.take 4 ++ ⟨97, some 3⟩ :: entries.drop 5 := by decide +kernel
  obtain ⟨-, -, hiff, hdimmed⟩ := hshown _ _ _ 3 (.plainText ⟨0, 1⟩) hsplit rfl (by decide)
    (by decide)
  exact ⟨leadingEmphasis_grown, hinline, leadingEmphasis_unnested, hrender, hsplit,
    hiff.mpr (hdimmed leadingEmphasis_unnested)⟩

/-- Emphasis with emphasis of another level in it, and after that emphasis of its own level, whose
delimiters are left out. -/
def resumedEmphasis : Tree :=
  ((((((Tree.new.appended Tree.rootId .paragraph).appended 1 (.emphasis 1)).appended 2
    (.plainText ⟨0, 1⟩)).appended 2 (.emphasis 2)).appended 4 (.plainText ⟨1, 2⟩)).appended 2
    (.emphasis 1)).appended 6 (.plainText ⟨2, 3⟩)

theorem resumedEmphasis_grown : resumedEmphasis.Grown :=
  .append (.append (.append (.append (.append (.append (.append .new
    (Tree.append?_of_lt (by decide) _)) (Tree.append?_of_lt (by decide) _))
    (Tree.append?_of_lt (by decide) _)) (Tree.append?_of_lt (by decide) _))
    (Tree.append?_of_lt (by decide) _)) (Tree.append?_of_lt (by decide) _))
    (Tree.append?_of_lt (by decide) _)

/-- So text is not emphasized once emphasis has ended beside it. -/
theorem Formatter.resumedEmphasis_unlit :
    ¬∀ (hardWraps : Bool) (formatCode : CodeFormatter) (source : Source) (tree : Tree),
      tree.Grown → tree.InlineBelow →
      (∀ id level, tree.isVisited id = true → tree.node? id = some (.emphasis level) →
        1 ≤ level ∧ level ≤ 3) →
      (∀ id node, tree.node? id = some node →
        ({ source, formatCode } : Context).EscapeFree node) →
      let formatter : Formatter :=
        { options := { hardWraps, terminalStyling := true }, formatCode }
      let entries := (formatter.document none source tree).credited none
      ∀ before entry after id node, entries = before ++ entry :: after →
        entry.author = some id → tree.node? id = some node → node.kind = .text →
        let screen := ({} : Screen).after (before.map Entry.byte)
        ∀ level, level ∈ screen.lit ↔ .emphasis level ∈ (tree.place id).ancestors := by
  intro hown
  let formatter : Formatter := { options := { terminalStyling := true } }
  let entries := (formatter.document none #[97, 98, 99] resumedEmphasis).credited none
  have hlevels : ∀ id < resumedEmphasis.size, ∀ level ∈ resumedEmphasis.emphasisLevel? id,
      1 ≤ level ∧ level ≤ 3 := by decide
  have hfree : ∀ id < resumedEmphasis.size, ∀ node ∈ resumedEmphasis.node? id,
      ({ source := #[97, 98, 99] } : Context).EscapeFree node := by decide +kernel
  have hsplit : entries = entries.take 14 ++ ⟨99, some 7⟩ :: entries.drop 15 := by decide +kernel
  have hlit := hown false .none #[97, 98, 99] resumedEmphasis resumedEmphasis_grown
    (Tree.inlineBelow_of_forall (by decide))
    (fun _ _ _ hnode => Tree.forall_emphasis hlevels hnode)
    (fun _ _ hnode => Context.forall_escapeFree hfree hnode) _ _ _ 7 (.plainText ⟨2, 3⟩) hsplit rfl
    (by decide) rfl 1
  have hunlit : 1 ∉ (({} : Screen).after ((entries.take 14).map Entry.byte)).lit := by
    decide +kernel
  exact hunlit (hlit.mpr (by decide))

end Render

end CanonicalMarkdown
