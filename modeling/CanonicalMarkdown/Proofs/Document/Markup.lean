import CanonicalMarkdown.Document.Builder
import CanonicalMarkdown.Proofs.Document.Shape

namespace CanonicalMarkdown.Document

/-! Events that neither start nor end anything. -/

inductive Leaf where
  | text (text : String)
  | code (text : String)
  | html (text : String)
  | inlineHtml (text : String)
  | softBreak
  | hardBreak
  | rule
  | footnoteReference (label : String)
  | inlineMath (text : String)
  | displayMath (text : String)
  | taskMarker (checked : Bool)

namespace Leaf

def event : Leaf → Event
  | .text content => .text content
  | .code content => .code content
  | .html content => .html content
  | .inlineHtml content => .inlineHtml content
  | .softBreak => .softBreak
  | .hardBreak => .hardBreak
  | .rule => .rule
  | .footnoteReference label => .footnoteReference label
  | .inlineMath content => .inlineMath content
  | .displayMath content => .displayMath content
  | .taskMarker checked => .taskMarker checked

/-! What code and HTML blocks, the description of an image and front matter keep. -/

def isLine : Leaf → Bool
  | .text _ | .html _ | .inlineHtml _ => true
  | _ => false

def alt : Leaf → String
  | .text content | .code content | .html content | .inlineHtml content => content
  | .softBreak | .hardBreak => " "
  | _ => ""

def frontMatter : Leaf → String
  | .text content => content
  | _ => ""

end Leaf

theorem Event.eq_start_or_stop_or_leaf (event : Event) :
    (∃ tag, event = .start tag) ∨ event = .stop ∨ ∃ leaf : Leaf, event = leaf.event := by
  cases event with
  | start tag => exact .inl ⟨tag, rfl⟩
  | stop => exact .inr (.inl rfl)
  | text content => exact .inr (.inr ⟨.text content, rfl⟩)
  | code content => exact .inr (.inr ⟨.code content, rfl⟩)
  | html content => exact .inr (.inr ⟨.html content, rfl⟩)
  | inlineHtml content => exact .inr (.inr ⟨.inlineHtml content, rfl⟩)
  | softBreak => exact .inr (.inr ⟨.softBreak, rfl⟩)
  | hardBreak => exact .inr (.inr ⟨.hardBreak, rfl⟩)
  | rule => exact .inr (.inr ⟨.rule, rfl⟩)
  | footnoteReference label => exact .inr (.inr ⟨.footnoteReference label, rfl⟩)
  | inlineMath content => exact .inr (.inr ⟨.inlineMath content, rfl⟩)
  | displayMath content => exact .inr (.inr ⟨.displayMath content, rfl⟩)
  | taskMarker checked => exact .inr (.inr ⟨.taskMarker checked, rfl⟩)

/-! Events as they are nested: every start has its end. -/

inductive Markup where
  | leaf (event : Leaf) (range : Segment)
  | span (tag : Tag) (opening : Segment) (content : List Markup) (closing : Segment)

/-- The tags a parser is asked for. -/
def Tag.isSupported : Tag → Bool
  | .footnoteDefinition | .table | .tableHead | .tableRow | .tableCell | .definitionList
  | .definitionTitle | .definitionDetail | .superscript | .subscript => false
  | _ => true

/-- Whether the content of the tag is taken as text or dropped. -/
def Tag.isCapturing : Tag → Bool
  | .indentedCode | .fencedCode _ | .htmlBlock | .image _ _ | .frontMatter => true
  | .link type _ _ => type.isAutomatic
  | _ => false

namespace Markup

theorem induct {motive : Markup → Prop} (leaf : ∀ event range, motive (.leaf event range))
    (span : ∀ tag opening content closing, (∀ markup ∈ content, motive markup) →
      motive (.span tag opening content closing)) (markup : Markup) : motive markup :=
  markup.rec (motive_2 := fun content => ∀ markup ∈ content, motive markup) leaf span
    (by simp) fun _ _ hhead htail => by simpa using ⟨hhead, htail⟩

mutual

def events : Markup → EventStream
  | .leaf event range => [(event.event, range)]
  | .span tag opening content closing =>
      (.start tag, opening) :: (eventsOfAll content ++ [(.stop, closing)])

def eventsOfAll : List Markup → EventStream
  | [] => []
  | markup :: rest => markup.events ++ eventsOfAll rest

end

theorem eventsOfAll_append (left right : List Markup) :
    eventsOfAll (left ++ right) = eventsOfAll left ++ eventsOfAll right := by
  induction left with
  | nil => rfl
  | cons markup rest ih => rw [List.cons_append, eventsOfAll, ih, eventsOfAll, List.append_assoc]

theorem mem_eventsOfAll {content : List Markup} {markup : Markup} (hmarkup : markup ∈ content)
    {event : Event × Segment} (hevent : event ∈ markup.events) : event ∈ eventsOfAll content := by
  induction content with
  | nil => cases hmarkup
  | cons head rest ih =>
      rw [eventsOfAll, List.mem_append]
      rcases List.mem_cons.mp hmarkup with rfl | hrest
      · exact .inl hevent
      · exact .inr (ih hrest)

end Markup

/-! A stream is well nested when every end has its start and every start its end. -/

/-- How many tags are open after the events, unless an end has no start. -/
def openAfter (count : Nat) : EventStream → Option Nat
  | [] => some count
  | (.start _, _) :: rest => openAfter (count + 1) rest
  | (.stop, _) :: rest =>
      match count with
      | 0 => none
      | count + 1 => openAfter count rest
  | _ :: rest => openAfter count rest

def WellNested (stream : EventStream) : Prop := openAfter 0 stream = some 0

theorem openAfter_leaf (count : Nat) (leaf : Leaf) (range : Segment) (rest : EventStream) :
    openAfter count ((leaf.event, range) :: rest) = openAfter count rest := by
  cases leaf <;> rfl

/-- The end of the innermost open tag, followed by what closes the others. -/
def Closes : Nat → EventStream → Prop
  | 0, stream => stream = []
  | count + 1, stream => ∃ closing tail, stream = (.stop, closing) :: tail ∧
      openAfter count tail = some 0

theorem exists_forest_of_openAfter {stream : EventStream} {count : Nat}
    (hstream : openAfter count stream = some 0) :
    ∃ forest rest, stream = Markup.eventsOfAll forest ++ rest ∧ Closes count rest := by
  induction hlength : stream.length using Nat.strongRecOn generalizing stream count with
  | ind length ih =>
      cases stream with
      | nil =>
          cases hstream
          exact ⟨[], [], rfl, rfl⟩
      | cons head stream =>
          obtain ⟨event, range⟩ := head
          have hlt : stream.length < length := hlength ▸ Nat.lt_succ_self _
          rcases event.eq_start_or_stop_or_leaf with ⟨tag, rfl⟩ | rfl | ⟨leaf, rfl⟩
          · have hcontent : openAfter (count + 1) stream = some 0 := hstream
            obtain ⟨content, _, rfl, closing, tail, rfl, htail⟩ := ih _ hlt hcontent rfl
            have hshort : tail.length < length := by
              simp only [List.length_append, List.length_cons] at hlt
              omega
            obtain ⟨forest, rest, rfl, hrest⟩ := ih _ hshort htail rfl
            exact ⟨.span tag range content closing :: forest, rest,
              by simp [Markup.eventsOfAll, Markup.events], hrest⟩
          · cases count with
            | zero => cases hstream
            | succ count => exact ⟨[], _, rfl, range, stream, rfl, hstream⟩
          · rw [openAfter_leaf] at hstream
            obtain ⟨forest, rest, rfl, hrest⟩ := ih _ hlt hstream rfl
            exact ⟨.leaf leaf range :: forest, rest, rfl, hrest⟩

theorem WellNested.exists_forest {stream : EventStream} (hnested : WellNested stream) :
    ∃ forest, Markup.eventsOfAll forest = stream := by
  obtain ⟨forest, rest, hstream, hrest⟩ := exists_forest_of_openAfter hnested
  exact ⟨forest, by rw [hstream, hrest, List.append_nil]⟩

namespace Markup

mutual

def leaves : Markup → List (Leaf × Segment)
  | .leaf event range => [(event, range)]
  | .span _ _ content _ => leavesOfAll content

def leavesOfAll : List Markup → List (Leaf × Segment)
  | [] => []
  | markup :: rest => markup.leaves ++ leavesOfAll rest

end

end Markup

def Leaf.linesOf (leaves : List (Leaf × Segment)) : List Segment :=
  (leaves.filter fun leaf => leaf.1.isLine).map Prod.snd

def Leaf.altOf (leaves : List (Leaf × Segment)) : String :=
  String.join (leaves.map fun leaf => leaf.1.alt)

def Leaf.frontMatterOf (leaves : List (Leaf × Segment)) : String :=
  String.join (leaves.map fun leaf => leaf.1.frontMatter)

/-! What markup adds to the node around it. -/

inductive Part where
  | inline (shape : Shape)
  | lineBreak (hard : Bool) (offset : Nat)
  | block (shapes : List Shape)

namespace Part

def isBlock : Part → Bool
  | .block _ => true
  | _ => false

/-- A line break goes to the text right before it, unless that is raw. -/
def addTo (shapes : List Shape) : Part → List Shape
  | .inline shape => shapes ++ [shape]
  | .block added => shapes ++ added
  | .lineBreak hard offset =>
      match shapes.getLast? with
      | some (.mk (.text segment false soft hardBefore) below) =>
          shapes.dropLast ++
            [.mk (.text segment false (soft || !hard) (hardBefore || hard)) below]
      | _ => shapes ++ [.leaf (.text ⟨offset, offset⟩ false (!hard) hard)]

def joined (parts : List Part) : List Shape := parts.foldl addTo []

/-- In a list item each run of parts between blocks becomes a text block. -/
def itemised : List Part → List Shape
  | [] => []
  | .block shapes :: rest => shapes ++ itemised rest
  | part :: rest =>
      .mk .textBlock (joined (part :: rest.takeWhile (!·.isBlock))) ::
        itemised (rest.dropWhile (!·.isBlock))
termination_by parts => parts.length
decreasing_by
  · exact Nat.lt_succ_self _
  · exact Nat.lt_succ_of_le (List.dropWhile_suffix _).length_le

end Part

/-- The range of a text, with the backslash before it where that escapes its first character. -/
def Leaf.textRange (source : Source) (text : String) (range : Segment) : Segment :=
  match (Bytes.ofText text).head? with
  | none => range
  | some byte =>
      if Bytes.isPunctuation byte ∧ 0 < range.start ∧
          (source.toList.drop (range.start - 1)).take 2 = [Bytes.backslash, byte] then
        ⟨range.start - 1, range.stop⟩
      else
        range

def Leaf.part (source : Source) (range : Segment) : Leaf → Part
  | .text content => .inline (.leaf (.plainText (Leaf.textRange source content range)))
  | .code content => .inline (.mk .codeSpan [.leaf (.string content)])
  | .html _ | .inlineHtml _ => .inline (.leaf (.rawHtml [range]))
  | .softBreak => .lineBreak false range.start
  | .hardBreak => .lineBreak true range.start
  | .rule => .block [.leaf .thematicBreak]
  | .footnoteReference _ | .inlineMath _ | .displayMath _ | .taskMarker _ =>
      .inline (.leaf (.rawText range))

/-- The part of a supported tag, given the parts and the leaves of its content. -/
def Tag.part (parts : List Part) (leaves : List (Leaf × Segment)) : Tag → Part
  | .paragraph => .block [.mk .paragraph (Part.joined parts)]
  | .heading level => .block [.mk (.heading level.toNat) (Part.joined parts)]
  | .blockquote => .block [.mk .blockquote (Part.joined parts)]
  | .list start => .block [.mk (.list start.isSome (start.getD 1)) (Part.joined parts)]
  | .item => .block [.mk .listItem (Part.itemised parts)]
  | .indentedCode => .block [.leaf (.codeBlock (Leaf.linesOf leaves))]
  | .fencedCode info =>
      .block [.leaf (.fencedCodeBlock (Text.firstWord? info) (Leaf.linesOf leaves))]
  | .htmlBlock => .block [.leaf (.htmlBlock (Leaf.linesOf leaves) none)]
  | .frontMatter => .block []
  | .emphasis => .inline (.mk (.emphasis 1) (Part.joined parts))
  | .strong => .inline (.mk (.emphasis 2) (Part.joined parts))
  | .strikethrough => .inline (.mk .strikethrough (Part.joined parts))
  | .link type destination title =>
      if type.isAutomatic then .inline (.leaf (.autoLink destination))
      else .inline (.mk (.link destination title) (Part.joined parts))
  | .image destination title =>
      .inline (.leaf (.image destination title (Leaf.altOf leaves)))
  | .footnoteDefinition | .table | .tableHead | .tableRow | .tableCell | .definitionList
  | .definitionTitle | .definitionDetail | .superscript | .subscript => .block []

namespace Markup

mutual

def part (source : Source) : Markup → Part
  | .leaf event range => event.part source range
  | .span tag _ content _ => tag.part (partsOfAll source content) (leavesOfAll content)

def partsOfAll (source : Source) : List Markup → List Part
  | [] => []
  | markup :: rest => markup.part source :: partsOfAll source rest

end

mutual

/-- The texts of the front matter that is not captured itself. -/
def frontMatters : Markup → List String
  | .leaf _ _ => []
  | .span tag _ content _ =>
      if tag = .frontMatter then [Leaf.frontMatterOf (leavesOfAll content)]
      else if tag.isCapturing then []
      else frontMattersOfAll content

def frontMattersOfAll : List Markup → List String
  | [] => []
  | markup :: rest => markup.frontMatters ++ frontMattersOfAll rest

end

end Markup

/-! Front matter replaces the front matter before it. -/

def frontMatterValue (text : String) : Except BuildError (Option Yaml.Value) :=
  if Text.isBlankText text then .ok none
  else match Yaml.Value.read text with
    | .ok value => .ok (some value)
    | .error cause => .error (.frontMatter cause)

def metadataAfter (metadata : Option Yaml.Value) (texts : List String) :
    Except BuildError (Option Yaml.Value) :=
  texts.foldlM (fun _ text => frontMatterValue text) metadata

end CanonicalMarkdown.Document
