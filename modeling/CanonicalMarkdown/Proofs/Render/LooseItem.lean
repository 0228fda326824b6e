import CanonicalMarkdown.Proofs.Render.InlineContent

namespace CanonicalMarkdown.Render

open Document Output

/-! The paragraphs of a list item and what stands between them. -/

/-- A paragraph that follows another block of the item. -/
def setOff (text : Bytes) : Bytes := [Bytes.newline, Bytes.newline] ++ text ++ [Bytes.newline]

namespace Renderer

variable {renderer : Renderer} (hbuiltIn : renderer.overrides.find? .paragraph = none)
include hbuiltIn

section

variable {place : Place} (hlist : place.isInList = true) {element : Element}
  (hparagraph : element.node = .paragraph)
include hlist hparagraph

theorem render_paragraph (parts : List Layout) :
    renderer.render place element .enter parts =
        .skipChildren (if place.hasPrevious then .newline ++ .concat parts ++ .newline
          else .concat parts) ∧
      renderer.render place element .leave parts = .descend (.when place.hasNext .newline) := by
  obtain ⟨id, node, children⟩ := element
  obtain rfl : node = .paragraph := hparagraph
  have hkind : renderer.overrides.find? (Element.mk id .paragraph children).kind = none := hbuiltIn
  rw [renderer.render_builtIn place hkind, renderer.render_builtIn place hkind]
  simp only [render_standard, builtIn, Element.kind, Element.node, Node.kind, Block.paragraph,
    hlist]
  refine ⟨?_, rfl⟩
  cases place.hasPrevious <;> rfl

/-- In a list a paragraph gets a newline on both sides if another block stands before it, and one
more if another follows. -/
theorem outcome_walk_paragraph {text : Bytes}
    (htext : (renderer.content place element).outcome = .all text) :
    (renderer.walk place element).outcome =
      (Written.all (if place.hasPrevious then Bytes.newline :: text ++ [Bytes.newline]
        else text)).followedBy (Layout.when place.hasNext .newline).outcome := by
  obtain ⟨henter, hleave⟩ :=
    render_paragraph hbuiltIn hlist hparagraph (renderer.parts place element)
  change (Layout.concat (renderer.parts place element)).outcome = _ at htext
  rw [walk_eq, around_of_skipChildren place henter, hleave, Layout.outcome_visit,
    Layout.outcome_append, Layout.outcome_visit]
  cases place.hasPrevious <;> simp [Rendering.descend, htext]

end

/-- The text of a paragraph, wherever it stands among its siblings. -/
def paragraphText (renderer : Renderer) (ancestors : List Node) (paragraph : Element) : Bytes :=
  (renderer.content ⟨ancestors, [], none⟩ paragraph).output

variable {ancestors : List Node}
  (hlist : ∀ previous next, Place.isInList ⟨ancestors, previous, next⟩)
include hlist

/-- What comes after a block of the item: two newlines before each paragraph and one after it. The
first of the two is written when the block before it is left. -/
theorem outcome_walkEach_paragraphs {previous : List Node} (hprevious : previous ≠ [])
    {rest : List Element} (hparagraphs : ∀ paragraph ∈ rest, paragraph.node = .paragraph)
    (hshown : ∀ paragraph ∈ rest,
      (renderer.content ⟨ancestors, [], none⟩ paragraph).failure = none) :
    (Layout.when (!rest.isEmpty) .newline ++
        .concat (renderer.walkEach ancestors previous rest)).outcome =
      .all ((rest.map (renderer.paragraphText ancestors)).flatMap setOff) := by
  induction rest generalizing previous with
  | nil => rfl
  | cons paragraph rest ih =>
      rw [List.forall_mem_cons] at hparagraphs hshown
      have hrest := ih (List.cons_ne_nil paragraph.node previous) hparagraphs.2 hshown.2
      have hfirst := outcome_walk_paragraph hbuiltIn
        (hlist previous (rest.head?.map Element.node)) hparagraphs.1
        (Layout.outcome_eq_all hshown.1)
      have hbefore :
          Place.hasPrevious ⟨ancestors, previous, rest.head?.map Element.node⟩ = true := by
        simpa [Place.hasPrevious] using hprevious
      have hafter : Place.hasNext ⟨ancestors, previous, rest.head?.map Element.node⟩ =
          !rest.isEmpty := by
        cases rest <;> rfl
      rw [hbefore, hafter, if_pos rfl] at hfirst
      rw [walkEach, Layout.concat, Layout.outcome_append, Layout.outcome_append, hfirst,
        Written.followedBy_assoc, ← Layout.outcome_append, hrest]
      rfl

omit hlist in
theorem outcome_content_paragraphs (place : Place) {item : Element} (hitem : item.node = .listItem)
    {first : Element} {rest : List Element} (hchildren : item.children = first :: rest)
    (hparagraphs : ∀ paragraph ∈ item.children, paragraph.node = .paragraph)
    (hshown : ∀ paragraph ∈ item.children,
      (renderer.content ⟨.listItem :: place.ancestors, [], none⟩ paragraph).failure = none) :
    let text := renderer.paragraphText (.listItem :: place.ancestors)
    (renderer.content place item).outcome =
      .all (text first ++ (rest.map text).flatMap setOff) := by
  intro text
  have hlist (previous : List Node) (next : Option Node) :
      Place.isInList ⟨.listItem :: place.ancestors, previous, next⟩ = true := by
    rw [Place.isInList_cons]
    rfl
  rw [hchildren, List.forall_mem_cons] at hparagraphs hshown
  have hrest := outcome_walkEach_paragraphs hbuiltIn hlist (List.cons_ne_nil first.node [])
    hparagraphs.2 hshown.2
  have hfirst := outcome_walk_paragraph hbuiltIn (hlist [] (rest.head?.map Element.node))
    hparagraphs.1 (Layout.outcome_eq_all hshown.1)
  have hafter : Place.hasNext ⟨.listItem :: place.ancestors, [], rest.head?.map Element.node⟩ =
      !rest.isEmpty := by
    cases rest <;> rfl
  rw [hafter] at hfirst
  rw [content, parts, hitem, hchildren, walkEach, Layout.concat, Layout.outcome_append, hfirst,
    Written.followedBy_assoc, ← Layout.outcome_append, hrest]
  rfl

end Renderer

/-- From the third paragraph on there is a newline too many before each. -/
theorem setOff_apart_iff (first : Bytes) {rest : List Bytes}
    (hlines : ∀ text ∈ rest, Bytes.newline ∉ text) (hnonempty : ∀ text ∈ rest, text ≠ []) :
    (∃ tail, (∀ byte ∈ tail, byte = Bytes.newline) ∧
        first ++ rest.flatMap setOff =
          [Bytes.newline, Bytes.newline].intercalate (first :: rest) ++ tail) ↔
      rest.length ≤ 1 := by
  match rest with
  | [] => exact iff_of_true ⟨[], by simp, by simp⟩ (by simp)
  | [second] => exact iff_of_true ⟨[Bytes.newline], by simp, by simp [setOff]⟩ (by simp)
  | second :: third :: more =>
      refine iff_of_false ?_ (by simp)
      rintro ⟨tail, -, hwhole⟩
      obtain ⟨byte, rest, rfl⟩ := List.exists_cons_of_ne_nil (hnonempty third (by simp))
      have hbyte : byte ≠ Bytes.newline := by
        rintro rfl
        exact hlines (Bytes.newline :: rest) (by simp) List.mem_cons_self
      obtain ⟨after, hafter⟩ : ∃ after,
          [Bytes.newline, Bytes.newline].intercalate ((byte :: rest) :: more) = byte :: after := by
        cases more <;> exact ⟨_, rfl⟩
      rw [List.intercalate_cons_cons, List.intercalate_cons_cons, hafter] at hwhole
      simp [setOff, Ne.symm hbyte] at hwhole

/-- The paragraphs of an item, each of them a line, have just one blank line between them exactly
if there are at most two. -/
theorem Formatter.paragraphs_apart_iff (formatter : Formatter)
    (hbuiltIn : formatter.overrides.find? .paragraph = none) (source : Source) (place : Place)
    {item : Element} (hitem : item.node = .listItem) (hnonempty : item.children ≠ [])
    (hparagraphs : ∀ paragraph ∈ item.children, paragraph.node = .paragraph)
    (hlines : ∀ paragraph ∈ item.children,
      let content := (formatter.renderer source).content
        ⟨.listItem :: place.ancestors, [], none⟩ paragraph
      content.OneLine ∧ content.output ≠ []) :
    let renderer := formatter.renderer source
    let texts := item.children.map (renderer.paragraphText (.listItem :: place.ancestors))
    let written := (renderer.content place item).run Buffer.empty
    written.result = .ok () ∧
      (∃ first rest, texts = first :: rest ∧
        Sink.contents written.state = first ++ rest.flatMap setOff) ∧
      ((∃ tail, (∀ byte ∈ tail, byte = Bytes.newline) ∧
          Sink.contents written.state =
            [Bytes.newline, Bytes.newline].intercalate texts ++ tail) ↔
        item.children.length ≤ 2) := by
  intro renderer texts written
  obtain ⟨first, rest, hchildren⟩ := List.exists_cons_of_ne_nil hnonempty
  let text := renderer.paragraphText (.listItem :: place.ancestors)
  have htexts : texts = text first :: rest.map text := by
    simp only [texts, hchildren, List.map_cons, text]
  have hfollowing : ∀ other ∈ rest.map text, Bytes.newline ∉ other ∧ other ≠ [] := by
    rw [List.forall_mem_map]
    intro paragraph hparagraph
    obtain ⟨hline, hshown⟩ := hlines paragraph (by simp [hchildren, hparagraph])
    exact ⟨hline.newline_not_mem, hshown⟩
  have hcontent := Renderer.outcome_content_paragraphs hbuiltIn place hitem hchildren hparagraphs
    fun paragraph hparagraph => (hlines paragraph hparagraph).1.failure_eq
  obtain ⟨hresult, hcontents⟩ := Layout.run_eq_all_iff.mpr hcontent
  have hapart := setOff_apart_iff (text first) (fun other hother => (hfollowing other hother).1)
    fun other hother => (hfollowing other hother).2
  refine ⟨hresult, ⟨text first, rest.map text, htexts, hcontents⟩, ?_⟩
  have hlength : (rest.map text).length ≤ 1 ↔ item.children.length ≤ 2 := by
    rw [hchildren, List.length_map, List.length_cons]
    omega
  rw [hcontents, htexts, ← hlength]
  exact hapart

/-- A paragraph of a single text. -/
def textParagraph (id : NodeId) (text : String) : Element :=
  .mk id .paragraph [.mk (id + 1) (.string text) []]

theorem textParagraph_line (source : Source) (place : Place) (id : NodeId) {text : String}
    (hline : Bytes.newline ∉ Bytes.ofText text) (hshown : Bytes.ofText text ≠ []) :
    let content := (({} : Formatter).renderer source).content place (textParagraph id text)
    content.OneLine ∧ content.output ≠ [] := by
  intro content
  have hcontent : content.outcome = .all (Bytes.ofText text) := by
    change (Layout.visit (id + 1) .enter (.text text ++ .done ++ .visit (id + 1) .leave .done) ++
      .done).outcome = _
    simp
  refine ⟨(Layout.oneLine_iff hcontent).mpr hline, ?_⟩
  rw [Layout.output, hcontent]
  exact hshown

def twoParagraphs : Element := .mk 2 .listItem [textParagraph 3 "a", textParagraph 5 "b"]

theorem Formatter.twoParagraphs_apart :
    let renderer := ({} : Formatter).renderer #[]
    let written := (renderer.content Place.root twoParagraphs).run Buffer.empty
    twoParagraphs.node = .listItem ∧ twoParagraphs.children ≠ [] ∧
      (∀ paragraph ∈ twoParagraphs.children, paragraph.node = .paragraph) ∧
      (∀ paragraph ∈ twoParagraphs.children,
        let content := renderer.content ⟨[.listItem], [], none⟩ paragraph
        content.OneLine ∧ content.output ≠ []) ∧
      Sink.contents written.state = Bytes.ofText "a\n\nb\n" ∧
      ∃ tail, (∀ byte ∈ tail, byte = Bytes.newline) ∧
        Sink.contents written.state = [Bytes.newline, Bytes.newline].intercalate
          (twoParagraphs.children.map (renderer.paragraphText [.listItem])) ++ tail := by
  intro renderer written
  have hparagraphs : ∀ paragraph ∈ twoParagraphs.children, paragraph.node = .paragraph := by
    simp [twoParagraphs, textParagraph, Element.children, Element.node]
  have hlines : ∀ paragraph ∈ twoParagraphs.children,
      let content := renderer.content ⟨[.listItem], [], none⟩ paragraph
      content.OneLine ∧ content.output ≠ [] := by
    simp only [twoParagraphs, Element.children, List.forall_mem_cons]
    exact ⟨textParagraph_line #[] _ 3 (by decide) (by decide),
      textParagraph_line #[] _ 5 (by decide) (by decide), by simp⟩
  have hnonempty : twoParagraphs.children ≠ [] := List.cons_ne_nil _ _
  obtain ⟨-, -, hapart⟩ := Formatter.paragraphs_apart_iff {} rfl #[] Place.root rfl hnonempty
    hparagraphs hlines
  exact ⟨rfl, hnonempty, hparagraphs, hlines, by decide +kernel, hapart.mpr (by decide)⟩

def threeParagraphs : Element :=
  .mk 2 .listItem [textParagraph 3 "a", textParagraph 5 "b", textParagraph 7 "c"]

/-- So two blank lines stand before a third paragraph. -/
theorem Formatter.threeParagraphs_drift :
    ¬∀ (formatter : Formatter) (source : Source) (place : Place) (item : Element),
      formatter.overrides.find? .paragraph = none → item.node = .listItem →
      item.children ≠ [] → (∀ paragraph ∈ item.children, paragraph.node = .paragraph) →
      (∀ paragraph ∈ item.children,
        let content := (formatter.renderer source).content
          ⟨.listItem :: place.ancestors, [], none⟩ paragraph
        content.OneLine ∧ content.output ≠ []) →
      let renderer := formatter.renderer source
      let texts := item.children.map (renderer.paragraphText (.listItem :: place.ancestors))
      let written := (renderer.content place item).run Buffer.empty
      ∃ tail, (∀ byte ∈ tail, byte = Bytes.newline) ∧
        Sink.contents written.state =
          [Bytes.newline, Bytes.newline].intercalate texts ++ tail := by
  intro hapart
  have hparagraphs : ∀ paragraph ∈ threeParagraphs.children, paragraph.node = .paragraph := by
    simp [threeParagraphs, textParagraph, Element.children, Element.node]
  have hlines : ∀ paragraph ∈ threeParagraphs.children,
      let content := (({} : Formatter).renderer #[]).content ⟨[.listItem], [], none⟩ paragraph
      content.OneLine ∧ content.output ≠ [] := by
    simp only [threeParagraphs, Element.children, List.forall_mem_cons]
    exact ⟨textParagraph_line #[] _ 3 (by decide) (by decide),
      textParagraph_line #[] _ 5 (by decide) (by decide),
      textParagraph_line #[] _ 7 (by decide) (by decide), by simp⟩
  obtain ⟨tail, -, hcontents⟩ := hapart {} #[] Place.root threeParagraphs rfl rfl
    (List.cons_ne_nil _ _) hparagraphs hlines
  have hwritten : Sink.contents (((({} : Formatter).renderer #[]).content Place.root
      threeParagraphs).run Buffer.empty).state = Bytes.ofText "a\n\nb\n\n\nc\n" := by decide +kernel
  have htexts : threeParagraphs.children.map ((({} : Formatter).renderer #[]).paragraphText
      [.listItem]) = [[97], [98], [99]] := by decide +kernel
  rw [hwritten, Place.root, htexts] at hcontents
  have hthird : (Bytes.ofText "a\n\nb\n\n\nc\n")[6]? = some 99 := by
    rw [hcontents]
    rfl
  exact absurd hthird (by decide +kernel)

end CanonicalMarkdown.Render
