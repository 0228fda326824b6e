import CanonicalMarkdown.Proofs.Render.Outlook
import CanonicalMarkdown.Proofs.Text.Bytes
import Mathlib

namespace CanonicalMarkdown

open Document Output

theorem Bytes.ofText_enclosed_inj (opening closing : String) {text other : String} :
    ofText (opening ++ text ++ closing) = ofText (opening ++ other ++ closing) ↔ text = other := by
  rw [ofText_inj]
  simp [← String.toList_inj]

/-! Texts with a separator between them. -/

/-- The second text goes on beyond the separator after the first, and takes in a part of what comes
next there. -/
def Overruns (separator first rest second tail : String) : Prop :=
  ∃ part, second = first ++ separator ++ part ∧ rest = part ++ separator ++ tail

section

variable {x y : Char} (hxy : x ≠ y)
include hxy

/-- A separator of two different characters does not overlap itself. -/
theorem pair_eq_append_iff {rest between tail : List Char} :
    x :: y :: rest = between ++ x :: y :: tail ↔
      (between = [] ∧ rest = tail) ∨
        ∃ part, between = x :: y :: part ∧ rest = part ++ x :: y :: tail := by
  match between with
  | [] => simp
  | [z] =>
      simp only [List.cons_append, List.nil_append, List.cons.injEq]
      constructor
      · rintro ⟨-, heq, -⟩
        exact absurd heq.symm hxy
      · simp
  | z :: w :: part =>
      simp only [List.cons_append, List.cons.injEq]
      constructor
      · rintro ⟨rfl, rfl, hrest⟩
        exact .inr ⟨part, ⟨rfl, rfl, rfl⟩, hrest⟩
      · rintro (⟨hnil, -⟩ | ⟨part, ⟨rfl, rfl, rfl⟩, hrest⟩)
        · cases hnil
        · exact ⟨rfl, rfl, hrest⟩

variable {separator : String} (hseparator : separator.toList = [x, y])
include hseparator

omit hxy in
theorem overruns_iff {first rest second tail : String} :
    Overruns separator first rest second tail ↔
      ∃ between part, second.toList = first.toList ++ between ∧ between = x :: y :: part ∧
        rest.toList = part ++ x :: y :: tail.toList := by
  constructor
  · rintro ⟨part, rfl, rfl⟩
    refine ⟨_, part.toList, ?_, rfl, ?_⟩ <;> simp [hseparator]
  · rintro ⟨between, part, hsecond, rfl, hrest⟩
    refine ⟨String.ofList part, ?_, ?_⟩ <;> simp [← String.toList_inj, hseparator, hsecond, hrest]

/-- Two texts around a separator can be told apart unless one overruns the separator of the
other. -/
theorem separated_eq_iff {first rest second tail : String} :
    first ++ separator ++ rest = second ++ separator ++ tail ↔
      (first = second ∧ rest = tail) ∨
        Overruns separator first rest second tail ∨
        Overruns separator second tail first rest := by
  rw [overruns_iff hseparator, overruns_iff hseparator]
  simp only [← String.toList_inj, String.toList_append, hseparator, List.append_assoc,
    List.cons_append, List.nil_append]
  -- The shorter of the two leading texts is the beginning of the longer one, which then either ends
  -- there or has the whole separator next.
  rw [List.append_eq_append_iff]
  simp only [pair_eq_append_iff hxy]
  constructor
  · rintro (⟨between, hsecond, ⟨rfl, hrest⟩ | ⟨part, hbetween, hrest⟩⟩ |
      ⟨between, hfirst, ⟨rfl, htail⟩ | ⟨part, hbetween, htail⟩⟩)
    · exact .inl ⟨by simpa using hsecond.symm, hrest⟩
    · exact .inr (.inl ⟨between, part, hsecond, hbetween, hrest⟩)
    · exact .inl ⟨by simpa using hfirst, htail.symm⟩
    · exact .inr (.inr ⟨between, part, hfirst, hbetween, htail⟩)
  · rintro (⟨hfirst, hrest⟩ | ⟨between, part, hsecond, hbetween, hrest⟩ |
      ⟨between, part, hfirst, hbetween, htail⟩)
    · exact .inl ⟨[], by simp [hfirst], .inl ⟨rfl, hrest⟩⟩
    · exact .inl ⟨between, hsecond, .inr ⟨part, hbetween, hrest⟩⟩
    · exact .inr ⟨between, hfirst, .inr ⟨part, hbetween, htail⟩⟩

end

namespace Render

namespace Inline

/-! What is written of a destination and a title. -/

def shownTitle (title : String) : String :=
  if title = "" then "" else " \"" ++ title ++ "\""

def shownTarget (destination title : String) : String := destination ++ shownTitle title

/-- The longer destination takes in the quote after the other one, and a part of the title that is
quoted there. -/
def TakesTitle (destination title longer rest : String) : Prop :=
  title ≠ "" ∧
    ∃ part, longer = destination ++ " \"" ++ part ∧ title ++ "\"" = part ++ shownTitle rest

section

variable {destination title other label : String}

theorem takesTitle_iff (htitle : title ≠ "") (hlabel : label ≠ "") :
    TakesTitle destination title other label ↔
      Overruns " \"" destination (title ++ "\"") other (label ++ "\"") := by
  simp only [TakesTitle, Overruns, shownTitle, htitle, hlabel, if_false, ne_eq, not_false_eq_true,
    true_and, String.append_assoc]

/-- A destination without a title takes in the other title as a whole. -/
theorem takesTitle_empty_iff :
    TakesTitle destination title other "" ↔
      title ≠ "" ∧ other = shownTarget destination title := by
  simp only [TakesTitle, shownTitle, if_true, String.append_empty]
  refine and_congr_right fun htitle => ?_
  simp [shownTarget, shownTitle, htitle, String.append_assoc]

/-- A destination with its title can be told apart from another unless one takes in a part of the
title of the other. -/
theorem shownTarget_eq_iff :
    shownTarget destination title = shownTarget other label ↔
      (destination = other ∧ title = label) ∨ TakesTitle destination title other label ∨
        TakesTitle other label destination title := by
  have hbare (name : String) : shownTarget name "" = name := String.append_empty
  by_cases htitle : title = ""
  · subst htitle
    rw [takesTitle_empty_iff, hbare]
    by_cases hlabel : label = ""
    · subst hlabel
      simp [TakesTitle, hbare]
    · simp [TakesTitle, hlabel, Ne.symm hlabel]
  · by_cases hlabel : label = ""
    · subst hlabel
      rw [takesTitle_empty_iff, hbare]
      simp [TakesTitle, htitle, eq_comm]
    · have hquote : title ++ "\"" = label ++ "\"" ↔ title = label := by
        simp [← String.toList_inj]
      rw [takesTitle_iff htitle hlabel, takesTitle_iff hlabel htitle, ← hquote,
        ← separated_eq_iff (x := ' ') (y := '"') (by decide) rfl]
      simp [shownTarget, shownTitle, htitle, hlabel, String.append_assoc]

end

theorem outcome_target (destination title : String) :
    (target destination title).outcome =
      .all (Bytes.ofText ("](" ++ shownTarget destination title ++ ")")) := by
  have htitle : (Inline.title title).outcome = .all (Bytes.ofText (shownTitle title)) := by
    unfold Inline.title shownTitle
    simp only [String.isEmpty_iff]
    split
    · rfl
    · rw [Layout.outcome_text]
  simp [target, htitle, shownTarget, Bytes.ofText_append]

end Inline

/-- From below a link it does not matter where the link leads. -/
theorem Alike.link {left right : List Node} (halike : Alike left right)
    (destination title other label : String) :
    Alike (.link destination title :: left) (.link other label :: right) where
  isInList previous next := by
    rw [Place.isInList_cons, Place.isInList_cons, halike.isInList]
    rfl
  isEmphasized previous next level := by
    rw [Place.inlineAncestors_cons, Place.inlineAncestors_cons]
    exact halike.isEmphasized previous next level
  isInTextBlock previous next := by
    rw [Place.isInTextBlock_cons, Place.isInTextBlock_cons]
    exact halike.isInTextBlock previous next
  parent_isItem := rfl
  parent_isOrdered := rfl

namespace Renderer

variable (context : Context)

theorem outcome_walk_link (place : Place) {element : Element} {destination title : String}
    (hlink : element.node = .link destination title) :
    ((standard context).walk place element).outcome =
      (Written.all (Bytes.ofText "[")).followedBy
        (((standard context).content place element).outcome.followedBy
          (.all (Bytes.ofText ("](" ++ Inline.shownTarget destination title ++ ")")))) := by
  obtain ⟨id, node, children⟩ := element
  obtain rfl : node = .link destination title := hlink
  have hwalk : (standard context).walk place (.mk id (.link destination title) children) =
      .visit id .enter (.text "[" ++
        (standard context).content place (.mk id (.link destination title) children) ++
        .visit id .leave (Inline.target destination title)) := rfl
  rw [hwalk, Layout.outcome_visit, Layout.outcome_append, Layout.outcome_append,
    Layout.outcome_visit, Layout.outcome_text, Inline.outcome_target, Written.followedBy_assoc]

/-- Links with the same children, whose surroundings look the same, write the same for them. -/
theorem outcome_content_link {place other : Place} (halike : Alike place.ancestors other.ancestors)
    {first second : Element} {destination title address label : String}
    (hfirst : first.node = .link destination title) (hsecond : second.node = .link address label)
    (hshapes : Element.shapeOfAll first.children = Element.shapeOfAll second.children) :
    ((standard context).content place first).outcome =
      ((standard context).content other second).outcome := by
  apply Layout.outcome_concat
  rw [parts, parts, hfirst, hsecond]
  exact outcome_walkEach context (halike.link _ _ _ _) [] first.children hshapes fun _ _ _ => rfl

theorem outcome_walk_image (place : Place) {element : Element} {destination title alt : String}
    (himage : element.node = .image destination title alt) :
    ((standard context).walk place element).outcome =
      .all (Bytes.ofText ("![" ++ (alt ++ "](" ++ Inline.shownTarget destination title) ++ ")") ++
        if place.parent?.all (·.kind == .document) then [Bytes.newline, Bytes.newline]
        else []) := by
  obtain ⟨id, node, children⟩ := element
  obtain rfl : node = .image destination title alt := himage
  let element : Element := .mk id (.image destination title alt) children
  let parts := (standard context).parts place element
  have henter : (standard context).render place element .enter parts =
      .skipChildren (.text ("![" ++ alt) ++ Inline.target destination title ++
        .when (place.parent?.all (·.kind == .document)) .blankLine) := rfl
  have hleave : (standard context).render place element .leave parts = .nothing := rfl
  have hblank : Layout.blankLine.outcome = .all [Bytes.newline, Bytes.newline] := rfl
  rw [walk_eq, around_of_skipChildren place henter, hleave]
  simp only [Layout.outcome_visit, Layout.outcome_append, Layout.outcome_text,
    Inline.outcome_target, Rendering.nothing, Rendering.descend, Layout.outcome_done,
    Written.followedBy_nothing, Written.all_followedBy_all, Layout.when, Bytes.ofText_append]
  split <;> simp [hblank]

section

variable {place other : Place} {first second : Element}
  {destination title alt address label name : String}

theorem link_alike_iff (hfirst : first.node = .link destination title)
    (hsecond : second.node = .link address label)
    (hcontent : ((standard context).content place first).outcome =
      ((standard context).content other second).outcome) :
    let written := ((standard context).walk place first).outcome
    let twin := ((standard context).walk other second).outcome
    written.result = twin.result ∧
      (written.result = .ok () →
        (written.state = twin.state ↔
          (destination = address ∧ title = label) ∨
            Inline.TakesTitle destination title address label ∨
            Inline.TakesTitle address label destination title)) := by
  intro written twin
  have hwritten : written = _ := outcome_walk_link context place hfirst
  have htwin : twin = _ := outcome_walk_link context other hsecond
  rw [hwritten, htwin, hcontent]
  obtain ⟨result, data⟩ := ((standard context).content other second).outcome
  cases result with
  | error error => exact ⟨rfl, fun hresult => nomatch hresult⟩
  | ok _ =>
      refine ⟨rfl, fun _ => ?_⟩
      rw [← Inline.shownTarget_eq_iff, ← Bytes.ofText_enclosed_inj "](" ")"]
      simp [Written.followedBy, Written.all]

theorem image_alike_iff (hfirst : first.node = .image destination title alt)
    (hsecond : second.node = .image address label name)
    (hparent : place.parent?.map Node.kind = other.parent?.map Node.kind) :
    let written := ((standard context).walk place first).outcome
    let twin := ((standard context).walk other second).outcome
    written.result = .ok () ∧ twin.result = .ok () ∧
      (written.state = twin.state ↔
        (alt = name ∧
            ((destination = address ∧ title = label) ∨
              Inline.TakesTitle destination title address label ∨
              Inline.TakesTitle address label destination title)) ∨
          Overruns "](" alt (Inline.shownTarget destination title) name
            (Inline.shownTarget address label) ∨
          Overruns "](" name (Inline.shownTarget address label) alt
            (Inline.shownTarget destination title)) := by
  intro written twin
  have hwritten : written = _ := outcome_walk_image context place hfirst
  have htwin : twin = _ := outcome_walk_image context other hsecond
  have hblock : place.parent?.all (·.kind == .document) =
      other.parent?.all (·.kind == .document) := by
    have hkinds := congrArg (Option.all (· == Kind.document)) hparent
    rwa [Option.all_map, Option.all_map] at hkinds
  rw [hwritten, htwin, hblock, ← Inline.shownTarget_eq_iff,
    ← separated_eq_iff (x := ']') (y := '(') (by decide) rfl, ← Bytes.ofText_enclosed_inj "![" ")"]
  refine ⟨rfl, rfl, ?_⟩
  simp [Written.all]

end

end Renderer

/-- Links with the same children write the same for them, as long as their surroundings look the
same. Then the links are written alike exactly if they agree in destination and title, or the
destination of one takes in a part of the title of the other. Images are written alike exactly if
they agree in their alternative text, and in destination and title as links do, or the alternative
text of one takes in a part of the destination and title of the other. -/
theorem Formatter.written_alike_iff (options : Options) (formatCode : CodeFormatter)
    (source : Source) :
    let renderer := ({ options, formatCode } : Formatter).renderer source
    let written place element := (renderer.walk place element).run Buffer.empty
    (∀ place other first second destination title address label,
      first.node = .link destination title → second.node = .link address label →
      (Alike place.ancestors other.ancestors →
        Element.shapeOfAll first.children = Element.shapeOfAll second.children →
        (renderer.content place first).outcome = (renderer.content other second).outcome) ∧
      ((renderer.content place first).outcome = (renderer.content other second).outcome →
        (written place first).result = (written other second).result ∧
        ((written place first).result = .ok () →
          (Sink.contents (written place first).state = Sink.contents (written other second).state ↔
            (destination = address ∧ title = label) ∨
              Inline.TakesTitle destination title address label ∨
              Inline.TakesTitle address label destination title)))) ∧
    ∀ place other first second destination title alt address label name,
      first.node = .image destination title alt → second.node = .image address label name →
      place.parent?.map Node.kind = other.parent?.map Node.kind →
      (written place first).result = .ok () ∧ (written other second).result = .ok () ∧
        (Sink.contents (written place first).state = Sink.contents (written other second).state ↔
          (alt = name ∧
              ((destination = address ∧ title = label) ∨
                Inline.TakesTitle destination title address label ∨
                Inline.TakesTitle address label destination title)) ∨
            Overruns "](" alt (Inline.shownTarget destination title) name
              (Inline.shownTarget address label) ∨
            Overruns "](" name (Inline.shownTarget address label) alt
              (Inline.shownTarget destination title)) := by
  intro renderer written
  let context : Context := { source, options, formatCode }
  have hresult : ∀ place element, (written place element).result =
      ((Renderer.standard context).walk place element).outcome.result := by
    intro place element
    simp only [written, Layout.run_eq]
    rfl
  have hcontents : ∀ place element, Sink.contents (written place element).state =
      ((Renderer.standard context).walk place element).outcome.state :=
    fun place element => Layout.contents_run (renderer.walk place element)
  simp only [hresult, hcontents]
  refine ⟨?_, ?_⟩
  · intro place other first second destination title address label hfirst hsecond
    refine ⟨?_, Renderer.link_alike_iff context hfirst hsecond⟩
    intro halike hshapes
    exact Renderer.outcome_content_link context halike hfirst hsecond hshapes
  · intro place other first second destination title alt address label name hfirst hsecond hparent
    exact Renderer.image_alike_iff context hfirst hsecond hparent

def linkTo (destination title : String) : Element :=
  .mk 1 (.link destination title) [.mk 2 (.string "x") []]

theorem Formatter.linkTo_told_apart :
    let written element :=
      ((({} : Formatter).renderer #[]).walk Place.root element).run Buffer.empty
    (written (linkTo "a" "b")).result = .ok () ∧
      Sink.contents (written (linkTo "a" "b")).state ≠
        Sink.contents (written (linkTo "a b" "")).state := by
  intro written
  obtain ⟨hlinks, -⟩ := Formatter.written_alike_iff {} .none #[]
  obtain ⟨hcontent, halike⟩ :=
    hlinks Place.root Place.root (linkTo "a" "b") (linkTo "a b" "") _ _ _ _ rfl rfl
  obtain ⟨-, hsame⟩ := halike (hcontent (Alike.refl _) rfl)
  have hresult : (written (linkTo "a" "b")).result = .ok () := rfl
  refine ⟨hresult, fun hequal => ?_⟩
  rcases (hsame hresult).mp hequal with ⟨hdestination, -⟩ | htakes | ⟨hempty, -⟩
  · exact absurd hdestination (by decide)
  · exact absurd (Inline.takesTitle_empty_iff.mp htakes).2 (by decide)
  · exact hempty rfl

/-- So the bytes alone do not tell which part of a link or an image is which. -/
theorem Formatter.linkTo_mistaken :
    let written place element :=
      ((({} : Formatter).renderer #[]).walk place element).run Buffer.empty
    (¬∀ place first second destination title address label,
      first.node = .link destination title → second.node = .link address label →
      Element.shapeOfAll first.children = Element.shapeOfAll second.children →
      (written place first).result = .ok () → (written place second).result = .ok () →
      Sink.contents (written place first).state = Sink.contents (written place second).state →
        destination = address ∧ title = label) ∧
    ¬∀ place first second destination title alt address label name,
      first.node = .image destination title alt → second.node = .image address label name →
      (written place first).result = .ok () → (written place second).result = .ok () →
      Sink.contents (written place first).state = Sink.contents (written place second).state →
        alt = name ∧ destination = address ∧ title = label := by
  intro written
  refine ⟨?_, ?_⟩
  · intro hapart
    let quoted := linkTo "a \"b\"" ""
    let titled := linkTo "a" "b"
    have hsame : Sink.contents (written Place.root quoted).state =
        Sink.contents (written Place.root titled).state := by decide +kernel
    obtain ⟨-, htitle⟩ := hapart _ quoted titled _ _ _ _ rfl rfl rfl rfl rfl hsame
    exact absurd htitle (by decide)
  · intro hapart
    let short : Element := .mk 1 (.image "b](c" "" "a") []
    let long : Element := .mk 1 (.image "c" "" "a](b") []
    have hsame : Sink.contents (written Place.root short).state =
        Sink.contents (written Place.root long).state := by decide +kernel
    obtain ⟨halt, -⟩ := hapart _ short long _ _ _ _ _ _ rfl rfl rfl rfl hsame
    exact absurd halt (by decide)

end Render

end CanonicalMarkdown
