import CanonicalMarkdown.Proofs.Render.Failure

namespace CanonicalMarkdown.Render

open Document Output

/-- One of the two times that a node is rendered. -/
abbrev Call := NodeId × Phase

/-! Running a layout and noting the calls that are made. -/

structure Traced (σ : Type) where
  calls : List Call
  outcome : Outcome RenderError σ Unit

namespace Layout

/-- As `run`, which knows nothing of calls. What comes after a failure is not called. -/
def traced : Layout → {σ : Type} → [Writer σ] → σ → Traced σ
  | .done, _, _, writer => ⟨[], Action.skip writer⟩
  | .fail error, _, _, writer => ⟨[], Action.fail error writer⟩
  | .visit node phase rest, _, _, writer =>
      let after := rest.traced writer
      ⟨(node, phase) :: after.calls, after.outcome⟩
  | .write chunk rest, _, _, writer =>
      match written chunk writer with
      | ⟨.ok _, reached⟩ => rest.traced reached
      | ⟨.error error, reached⟩ => ⟨[], ⟨.error error, reached⟩⟩
  | .within layer body rest, σ, _, writer =>
      let inner := body.traced (⟨layer, writer⟩ : Layered σ)
      match inner.outcome with
      | ⟨.ok _, reached⟩ =>
          let after := rest.traced reached.below
          ⟨inner.calls ++ after.calls, after.outcome⟩
      | ⟨.error error, reached⟩ => ⟨inner.calls, ⟨.error error, reached.below⟩⟩

theorem outcome_traced (layout : Layout) {σ : Type} [Writer σ] (writer : σ) :
    (layout.traced writer).outcome = layout.run writer := by
  induction layout generalizing σ with
  | done | fail => rfl
  | visit node phase rest ih => exact ih writer
  | write chunk rest ih =>
      simp only [traced, run, Action.andThen]
      cases written chunk writer with
      | mk result reached =>
          cases result with
          | ok _ => exact ih reached
          | error error => rfl
  | within layer body rest ihBody ihRest =>
      simp only [traced, run, Action.andThen, narrowed, ← ihBody]
      cases (body.traced (⟨layer, writer⟩ : Layered σ)).outcome with
      | mk result reached =>
          cases result with
          | ok _ => exact ihRest reached.below
          | error error => rfl

end Layout

/-- The calls that were made, and the failure that ended them if there was one. -/
structure Trail where
  calls : List Call
  failure : Option RenderError

namespace Trail

def empty : Trail := ⟨[], none⟩

/-- What comes second is left out when the first fails. -/
def followedBy : Trail → Trail → Trail
  | ⟨calls, none⟩, second => ⟨calls ++ second.calls, second.failure⟩
  | ⟨calls, some error⟩, _ => ⟨calls, some error⟩

@[simp] theorem followedBy_empty (first : Trail) : first.followedBy empty = first := by
  obtain ⟨calls, failure⟩ := first
  cases failure with
  | none => simp [followedBy, empty]
  | some error => rfl

theorem followedBy_assoc (first second third : Trail) :
    (first.followedBy second).followedBy third =
      first.followedBy (second.followedBy third) := by
  obtain ⟨calls, failure⟩ := first
  cases failure with
  | some error => rfl
  | none =>
      obtain ⟨others, failure⟩ := second
      cases failure with
      | some error => rfl
      | none => simp [followedBy]

/-! A given list of calls, made up to the first that fails. -/

def upTo (fault : Call → Option RenderError) : List Call → Trail
  | [] => empty
  | call :: rest => (⟨[call], fault call⟩ : Trail).followedBy (upTo fault rest)

section

variable {fault : Call → Option RenderError}

theorem upTo_singleton (call : Call) : upTo fault [call] = ⟨[call], fault call⟩ :=
  followedBy_empty _

theorem upTo_append (first second : List Call) :
    upTo fault (first ++ second) = (upTo fault first).followedBy (upTo fault second) := by
  induction first with
  | nil => rfl
  | cons call rest ih => rw [List.cons_append, upTo, ih, upTo, followedBy_assoc]

theorem upTo_eq_all {calls : List Call} (hcalls : ∀ call ∈ calls, fault call = none) :
    upTo fault calls = ⟨calls, none⟩ := by
  induction calls with
  | nil => rfl
  | cons call rest ih =>
      rw [upTo, hcalls call (by simp), ih fun other hother => hcalls other (by simp [hother])]
      rfl

theorem upTo_eq_cut {before after : List Call} {call : Call} {error : RenderError}
    (hbefore : ∀ earlier ∈ before, fault earlier = none) (hcall : fault call = some error) :
    upTo fault (before ++ call :: after) = ⟨before ++ [call], some error⟩ := by
  rw [upTo_append, upTo_eq_all hbefore, upTo, hcall]
  rfl

end

end Trail

namespace Layout

/-- The trail of a layout on writers that never fail. -/
def trail : Layout → Trail
  | .done => .empty
  | .fail error => ⟨[], some error⟩
  | .visit node phase rest => (⟨[(node, phase)], none⟩ : Trail).followedBy rest.trail
  | .write _ rest => rest.trail
  | .within _ body rest => body.trail.followedBy rest.trail

theorem failure_trail (layout : Layout) : layout.trail.failure = layout.failure := by
  induction layout with
  | done | fail => rfl
  | visit node phase rest ih => exact ih
  | write chunk rest ih => rw [trail, ih, failure_write]
  | within layer body rest ihBody ihRest =>
      rw [failure_within, ← ihBody, ← ihRest, trail]
      cases body.trail with
      | mk calls failure => cases failure <;> rfl

theorem calls_traced (layout : Layout) {σ : Type} [Writer σ] [Steady σ] (writer : σ) :
    (layout.traced writer).calls = layout.trail.calls := by
  induction layout generalizing σ with
  | done | fail => rfl
  | visit node phase rest ih => exact congrArg (List.cons _) (ih writer)
  | write chunk rest ih =>
      simp only [traced, written_eq]
      exact ih _
  | within layer body rest ihBody ihRest =>
      -- On a steady writer the body fails just where its trail says so.
      have hinner := outcome_traced body (⟨layer, writer⟩ : Layered σ)
      have hcalls := ihBody (⟨layer, writer⟩ : Layered σ)
      have hfailure := body.failure_trail
      rw [run_eq] at hinner
      rw [failure, Outcome.failure] at hfailure
      simp only [traced, hinner, trail]
      cases htrail : body.trail with
      | mk calls failed =>
          rw [htrail] at hcalls hfailure
          cases hresult : body.outcome.result with
          | ok _ =>
              rw [hresult] at hfailure
              cases hfailure
              simp only [Trail.followedBy, hcalls, ihRest]
          | error error =>
              rw [hresult] at hfailure
              cases hfailure
              exact hcalls

/-! Trails of layouts by their parts. -/

@[simp] theorem trail_visit (node : NodeId) (phase : Phase) (rest : Layout) :
    (visit node phase rest).trail = (⟨[(node, phase)], none⟩ : Trail).followedBy rest.trail := rfl

@[simp] theorem trail_append (first second : Layout) :
    (first ++ second).trail = first.trail.followedBy second.trail := by
  induction first with
  | done | fail => rfl
  | visit node phase rest ih => rw [visit_append, trail, ih, trail, Trail.followedBy_assoc]
  | write chunk rest ih => exact ih
  | within layer body rest _ ih => rw [within_append, trail, ih, trail, Trail.followedBy_assoc]

@[simp] theorem trail_through (layer : Layer) (body : Layout) :
    (through layer body).trail = body.trail :=
  Trail.followedBy_empty _

/-- A layout that visits no node makes no calls, though it may fail. -/
def IsQuiet : Layout → Prop
  | .done => True
  | .fail _ => True
  | .visit _ _ _ => False
  | .write _ rest => rest.IsQuiet
  | .within _ body rest => body.IsQuiet ∧ rest.IsQuiet

theorem IsPlain.isQuiet {layout : Layout} (hplain : layout.IsPlain) : layout.IsQuiet := by
  induction layout with
  | done | fail => trivial
  | visit => exact hplain
  | write chunk rest ih => exact ih hplain
  | within layer body rest ihBody ihRest => exact ⟨ihBody hplain.1, ihRest hplain.2⟩

theorem IsQuiet.trail_eq {layout : Layout} (hquiet : layout.IsQuiet) :
    layout.trail = ⟨[], layout.failure⟩ := by
  have hcalls : layout.trail.calls = [] := by
    induction layout with
    | done | fail => rfl
    | visit => exact hquiet.elim
    | write chunk rest ih => exact ih hquiet
    | within layer body rest ihBody ihRest =>
        have hbody := ihBody hquiet.1
        have hrest := ihRest hquiet.2
        rw [trail]
        cases htrail : body.trail with
        | mk calls failure =>
            rw [htrail] at hbody
            cases failure with
            | none =>
                rw [Trail.followedBy, hrest, List.append_nil]
                exact hbody
            | some error => exact hbody
  rw [← failure_trail, ← hcalls]

theorem IsQuiet.trail_visit {layout : Layout} (hquiet : layout.IsQuiet) (node : NodeId)
    (phase : Phase) : (visit node phase layout).trail = ⟨[(node, phase)], layout.failure⟩ := by
  rw [Layout.trail_visit, hquiet.trail_eq]
  rfl

theorem IsQuiet.trail_visit_append {opening : Layout} (hquiet : opening.IsQuiet) (node : NodeId)
    (phase : Phase) (rest : Layout) :
    (visit node phase (opening ++ rest)).trail =
      (⟨[(node, phase)], opening.failure⟩ : Trail).followedBy rest.trail := by
  rw [← hquiet.trail_visit, ← trail_append, visit_append]

theorem Encloses.trail_eq {wrap : Layout → Layout} (hwrap : Encloses wrap) (body : Layout) :
    (wrap body).trail = body.trail := by
  induction hwrap with
  | itself => rfl
  | after before hbefore _ ih =>
      rw [trail_append, hbefore.isQuiet.trail_eq, hbefore.failure_eq_none, ih]
      rfl
  | newline _ ih =>
      rw [trail_append, ih]
      exact Trail.followedBy_empty _
  | through layer _ ih => rw [trail_through, ih]

end Layout

end CanonicalMarkdown.Render
