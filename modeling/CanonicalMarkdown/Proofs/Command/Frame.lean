import CanonicalMarkdown.Document.Prose
import CanonicalMarkdown.Proofs.Command.Run
import Mathlib

namespace CanonicalMarkdown.Command

open Files Output Render

/-! Actions that leave all files as they are. -/

def Keeps (action : Doing) : Prop :=
  ∀ progress, (action progress).state.files = progress.files

theorem keeps_skip : Keeps Action.skip := fun _ => rfl

theorem keeps_fail (error : CommandError) : Keeps (Action.fail error) := fun _ => rfl

theorem keeps_say (message : String) : Keeps (say message) := fun _ => rfl

theorem keeps_emit (bytes : Bytes) : Keeps (emit bytes) := fun _ => rfl

theorem keeps_noteChange : Keeps noteChange := fun _ => rfl

theorem Keeps.andThen {first second : Doing} (hfirst : Keeps first) (hsecond : Keeps second) :
    Keeps (first.andThen second) := by
  intro progress
  cases hresult : (first progress).result with
  | error error =>
      rw [Action.andThen_of_error hresult]
      exact hfirst progress
  | ok value =>
      rw [Action.andThen_of_ok hresult, hsecond]
      exact hfirst progress

theorem Keeps.forEach {action : Path → Doing} (haction : ∀ path, Keeps (action path))
    (paths : List Path) : Keeps (forEach action paths) := by
  induction paths with
  | nil => exact keeps_skip
  | cons path rest ih => exact (haction path).andThen ih

section

variable (session : Session) (formatter : Formatter)

theorem Keeps.withFormatted (path : Path) {next : Formatted → Doing}
    (hnext : ∀ formatted, Keeps (next formatted)) :
    Keeps (withFormatted session formatter path next) := by
  intro progress
  cases hformat : formatFile session formatter progress.files path with
  | error error => rw [withFormatted_of_error next hformat]
  | ok formatted =>
      rw [withFormatted_of_ok next hformat]
      exact hnext formatted progress

theorem keeps_checkFile (path : Path) : Keeps (checkFile session formatter path) := by
  apply Keeps.withFormatted
  intro formatted
  split
  · exact keeps_skip
  · exact (keeps_say _).andThen keeps_noteChange

theorem keeps_formatInput : Keeps (formatInput session formatter) := by
  unfold formatInput
  split
  · exact keeps_fail _
  · split
    · exact keeps_fail _
    · exact keeps_emit _

end

theorem keeps_reportSkipped (settings : Settings) (directory : Location) (paths : List Path) :
    Keeps (reportSkipped settings directory paths) := by
  intro progress
  rw [reportSkipped_eq]

theorem keeps_summarizeCheck (count : Nat) : Keeps (summarizeCheck count) := by
  intro progress
  unfold summarizeCheck
  split
  · rfl
  · exact keeps_say _ progress

section

variable (session : Session) (settings : Settings) (paths : List Path)

theorem keeps_runFormat : Keeps (runFormat session settings paths) := by
  unfold runFormat
  split
  · exact keeps_formatInput session _
  · refine (keeps_reportSkipped settings _ paths).andThen (Keeps.forEach ?_ _)
    exact fun path => Keeps.withFormatted session _ path fun formatted => keeps_emit _

theorem keeps_runCheck : Keeps (runCheck session settings paths) :=
  (keeps_reportSkipped settings _ paths).andThen <|
    (Keeps.forEach (keeps_checkFile session _) _).andThen (keeps_summarizeCheck _)

end

/-! What rewriting does to each file. -/

/-- The file holds the canonical form of the text it held. -/
def Canonicalized (session : Session) (options : Options) (before after : FileSystem)
    (path : Path) : Prop :=
  ∃ location source canonical,
    before.locate session.surroundings.directory path = .ok location ∧
    before.entry? location = some (.file (Bytes.ofText source)) ∧
    formatText session { options } source = .ok canonical ∧
    after.entry? location = some (.file canonical)

/-- Whatever the path leads to is as it was. -/
def Untouched (directory : Location) (before after : FileSystem) (path : Path) : Prop :=
  ∀ location, before.locate directory path = .ok location →
    after.entry? location = before.entry? location

/-- Why rewriting stops at a file. Only one that differs from its canonical form has to be
replaced. -/
inductive Fails (session : Session) (options : Options) (files : FileSystem) (path : Path) :
    CommandError → Prop
  | unreadable {cause : FileError}
      (hread : files.read session.surroundings.directory path = .error cause) :
      Fails session options files path (.file path cause)
  | unformattable {source : String} {cause : FormatError}
      (hread : files.read session.surroundings.directory path = .ok source)
      (htext : formatText session { options } source = .error cause) :
      Fails session options files path (.format path cause)
  | irreplaceable {location : Location} {source : String} {canonical : Bytes} {cause : FileError}
      (hlocate : files.locate session.surroundings.directory path = .ok location)
      (hentry : files.entry? location = some (.file (Bytes.ofText source)))
      (htext : formatText session { options } source = .ok canonical)
      (hdiffers : canonical ≠ Bytes.ofText source)
      (hobstacle : session.surroundings.obstacle? location = some cause) :
      Fails session options files path (.file path cause)

/-- Of the selected files those done hold their canonical form, and the rest, which starts with
the first that fails, is as it was. -/
structure Rewrites (session : Session) (settings : Settings) (paths : List Path)
    (before : FileSystem) (outcome : Outcome CommandError Progress Unit)
    (done rest : List Path) : Prop where
  selected_eq : selected settings session.surroundings.directory paths = done ++ rest
  canonicalized : ∀ path ∈ done,
    Canonicalized session settings.options before outcome.state.files path
  rest_untouched : ∀ path ∈ rest,
    Untouched session.surroundings.directory before outcome.state.files path
  skipped_untouched : ∀ path ∈ paths,
    select settings session.surroundings.directory path ≠ .selected →
      Untouched session.surroundings.directory before outcome.state.files path
  unlisted_untouched : ∀ location,
    (∀ path ∈ paths, before.locate session.surroundings.directory path ≠ .ok location) →
      outcome.state.files.entry? location = before.entry? location
  completes : rest = [] → outcome.result = .ok ()
  succeeds : ∀ path ∈ done, ∀ error, ¬ Fails session settings.options before path error
  stops : ∀ path later, rest = path :: later →
    ∃ error, Fails session settings.options before path error ∧ outcome.result = .error error

section

variable {session : Session} {options : Options} {files : FileSystem} {paths : List Path}

theorem Fails.rewriteFile_eq {path : Path} {error : CommandError}
    (hfails : Fails session options files path error) :
    rewriteFile session { options } files path = .error error := by
  cases hfails with
  | unreadable hread => exact rewriteFile_of_error (by simp only [formatFile, hread])
  | unformattable hread htext =>
      exact rewriteFile_of_error (by simp only [formatFile, hread, htext])
  | @irreplaceable location source canonical cause hlocate hentry htext hdiffers hobstacle =>
      have hformatted : formatFile session { options } files path = .ok ⟨source, canonical⟩ :=
        formatFile_eq_ok_iff.mpr ⟨FileSystem.read_eq_ok_iff.mpr ⟨_, hlocate, hentry⟩, htext⟩
      refine rewriteFile_of_hindered hformatted ?_
        (hindrance?_eq_some_iff.mpr ⟨_, hlocate, hobstacle⟩)
      exact Bool.eq_false_iff.mpr fun hcanonical =>
        hdiffers (Formatted.isCanonical_iff.mp hcanonical)

theorem fails_iff {path : Path} {error : CommandError} :
    Fails session options files path error ↔
      rewriteFile session { options } files path = .error error := by
  refine ⟨Fails.rewriteFile_eq, fun herror => ?_⟩
  obtain ⟨own, hformat, hown⟩ | ⟨formatted, cause, hformatted, hdiffers, hindered, hown⟩ |
    ⟨formatted, -, -, hrewritten⟩ := rewriteFile_cases session { options } files path
  · cases herror.symm.trans hown
    obtain ⟨cause, hread, rfl⟩ | ⟨source, cause, hread, htext, rfl⟩ := formatFile_eq_error hformat
    · exact .unreadable hread
    · exact .unformattable hread htext
  · cases herror.symm.trans hown
    obtain ⟨hread, htext⟩ := formatFile_eq_ok_iff.mp hformatted
    obtain ⟨location, hlocate, hentry⟩ := FileSystem.read_eq_ok_iff.mp hread
    obtain ⟨reached, hreached, hobstacle⟩ := hindrance?_eq_some_iff.mp hindered
    cases hlocate.symm.trans hreached
    have hother : formatted.canonical ≠ Bytes.ofText formatted.source :=
      fun heq => by simp [Formatted.isCanonical_iff.mpr heq] at hdiffers
    exact .irreplaceable hlocate hentry htext hother hobstacle
  · cases herror.symm.trans hrewritten

/-- What is rewritten before the first failure ends up in its canonical form. -/
theorem canonicalized_of_done {survey : Survey}
    (hsurvey : Survey.of (rewriteFile session { options } files) paths = survey)
    (hapart : paths.Pairwise (files.Apart session.surroundings.directory)) {path : Path}
    (hpath : path ∈ survey.done.map Prod.fst) :
    Canonicalized session options files
      (replaced files session.surroundings.directory survey.done) path := by
  obtain ⟨⟨path, formatted⟩, hdone, rfl⟩ := List.mem_map.mp hpath
  subst hsurvey
  obtain ⟨hformatted, -⟩ := rewriteFile_eq_ok (Survey.format_eq_of_mem hdone)
  obtain ⟨hread, htext⟩ := formatFile_eq_ok_iff.mp hformatted
  obtain ⟨location, hlocate, hentry⟩ := FileSystem.read_eq_ok_iff.mp hread
  exact ⟨location, formatted.source, formatted.canonical, hlocate, hentry, htext,
    entry?_replaced_of_mem hdone hlocate (hapart.sublist (Survey.done_sublist _ paths))⟩

theorem untouched_of_apart {directory : Location} {done : List (Path × Formatted)} {path : Path}
    (hapart : ∀ other ∈ done.map Prod.fst, files.Apart directory other path) :
    Untouched directory files (replaced files directory done) path := by
  intro location hlocate
  apply entry?_replaced_of_not
  intro entry hentry hreached
  exact hapart entry.1 (List.mem_map_of_mem hentry) location hreached hlocate

end

section

variable {session : Session} {settings : Settings} {files : FileSystem} {paths : List Path}

/-- The selected files are rewritten in order, up to the first that cannot be. -/
theorem runWrite_rewrites (hplain : settings.options.terminalStyling = false) (hpaths : paths ≠ [])
    (hapart : paths.Pairwise (files.Apart session.surroundings.directory)) :
    ∃ done rest, Rewrites session settings paths files
      (runWrite session settings paths { files }) done rest := by
  let directory := session.surroundings.directory
  let survey := rewritten session settings paths files
  have hselected : (selected settings directory paths).Pairwise (files.Apart directory) :=
    hapart.sublist List.filter_sublist
  have houtcome := runWrite_eq session settings paths files rfl hplain hpaths hselected
  generalize runWrite session settings paths { files } = outcome at houtcome ⊢
  have hafter : outcome.state.files = replaced files directory survey.done :=
    congrArg (·.state.files) houtcome
  have hresult : outcome.result = survey.result := congrArg (·.result) houtcome
  obtain ⟨rest, hsplit, hends⟩ := Survey.exists_rest
    (rewriteFile session { options := settings.options } files) (selected settings directory paths)
  change selected settings directory paths = survey.done.map Prod.fst ++ rest at hsplit
  have hdone : ∀ path ∈ survey.done.map Prod.fst, path ∈ selected settings directory paths := by
    intro path hpath
    rw [hsplit]
    exact List.mem_append_left rest hpath
  refine ⟨survey.done.map Prod.fst, rest, hsplit, ?_, ?_, ?_, ?_, ?_, ?_, ?_⟩
  · intro path hpath
    rw [hafter]
    exact canonicalized_of_done rfl hselected hpath
  · intro path hpath
    rw [hsplit, List.pairwise_append] at hselected
    rw [hafter]
    exact untouched_of_apart fun other hother => hselected.2.2 other hother path hpath
  · intro path hpath hskipped
    have hsymmetric : Std.Symm (files.Apart directory) := ⟨fun _ _ => FileSystem.Apart.symm⟩
    rw [hafter]
    apply untouched_of_apart
    intro other hother
    obtain ⟨hlisted, hchosen⟩ := List.mem_filter.mp (hdone other hother)
    -- A path is selected wherever it stands in the list, so a skipped one is none of those done.
    have hne : other ≠ path := by
      rintro rfl
      exact hskipped (by simpa using hchosen)
    exact hapart.forall hlisted hpath hne
  · intro location hunlisted
    rw [hafter]
    apply entry?_replaced_of_not
    intro entry hentry
    have hmem := hdone entry.1 (List.mem_map_of_mem hentry)
    exact hunlisted entry.1 (List.mem_of_mem_filter hmem)
  · rintro rfl
    rw [hresult]
    exact hends
  · intro path hpath error hfails
    obtain ⟨⟨path, formatted⟩, hdone, rfl⟩ := List.mem_map.mp hpath
    cases (Survey.format_eq_of_mem hdone).symm.trans hfails.rewriteFile_eq
  · rintro path later rfl
    obtain ⟨error, herror, hstopped⟩ := hends
    exact ⟨error, fails_iff.mpr herror, hresult.trans hstopped⟩

/-- Where rewriting stops is the first file that fails. -/
theorem Rewrites.split_eq {outcome : Outcome CommandError Progress Unit}
    {done rest firsts later : List Path} {path : Path} {error : CommandError}
    (hrewrites : Rewrites session settings paths files outcome done rest)
    (hselected : selected settings session.surroundings.directory paths = firsts ++ path :: later)
    (hfirsts : ∀ first ∈ firsts, ∀ cause, ¬ Fails session settings.options files first cause)
    (hfails : Fails session settings.options files path error) :
    done = firsts ∧ rest = path :: later ∧ outcome.result = .error error := by
  have hstops : ∀ {later}, rest = path :: later → outcome.result = .error error := by
    intro later hrest
    obtain ⟨cause, hcause, hresult⟩ := hrewrites.stops path later hrest
    cases hcause.rewriteFile_eq.symm.trans hfails.rewriteFile_eq
    exact hresult
  obtain ⟨between, hdone, hrest⟩ | ⟨between, hdone, hrest⟩ :=
    List.append_eq_append_iff.mp (hrewrites.selected_eq.symm.trans hselected)
  · cases between with
    | nil => exact ⟨by simpa using hdone.symm, hrest, hstops hrest⟩
    | cons first between =>
        obtain ⟨cause, hcause, -⟩ := hrewrites.stops first _ hrest
        exact absurd hcause (hfirsts first (by simp [hdone]) cause)
  · cases between with
    | nil => exact ⟨by simpa using hdone, hrest.symm, hstops hrest.symm⟩
    | cons first between =>
        obtain rfl := (List.cons.inj hrest).1
        exact absurd hfails (hrewrites.succeeds path (by simp [hdone]) error)

end

/-- Only rewriting touches files, and of them only those that are selected. Each that it comes to
before one that cannot be read, formatted or replaced ends up in its canonical form, and all others
stay as they were. Where the settings cannot be loaded, ask for styling or leave nothing to do, no
file is touched. -/
theorem perform_touches_only_done (session : Session) (invocation : Invocation) :
    let directory := session.surroundings.directory
    let before := session.surroundings.files
    let outcome := perform session invocation { files := before }
    let after := outcome.state.files
    (invocation.task ≠ .format true → after = before) ∧
    (invocation.task = .format true →
      match Settings.load session.surroundings invocation.settingsFile invocation.preferences with
      | .error cause => outcome.result = .error (.settings cause) ∧ after = before
      | .ok settings =>
          if settings.options.terminalStyling then
            outcome.result = .error .styledWrite ∧ after = before
          else if invocation.files = [] then
            outcome.result = .error .writeWithoutFiles ∧ after = before
          else
            invocation.files.Pairwise (before.Apart directory) →
            ∃ done rest,
              Rewrites session settings invocation.files before outcome done rest) := by
  intro directory before outcome after
  refine ⟨?_, ?_⟩
  · intro htask
    cases hload : Settings.load session.surroundings invocation.settingsFile
      invocation.preferences with
    | error cause =>
        simp only [after, outcome, perform, hload]
        rfl
    | ok settings =>
        simp only [after, outcome, perform, hload]
        match hkind : invocation.task with
        | .format false => exact keeps_runFormat session settings _ _
        | .format true => exact absurd hkind htask
        | .check => exact keeps_runCheck session settings _ _
  · intro htask
    cases hload : Settings.load session.surroundings invocation.settingsFile
      invocation.preferences with
    | error cause =>
        have houtcome : outcome = ⟨.error (.settings cause), { files := before }⟩ := by
          simp only [outcome, perform, hload, Action.fail]
        simp [after, houtcome]
    | ok settings =>
        have houtcome : outcome =
            runWrite session settings invocation.files { files := before } := by
          simp only [outcome, perform, hload, htask]
        dsimp only
        split
        · next hstyled =>
            have hfails : outcome = ⟨.error .styledWrite, { files := before }⟩ := by
              rw [houtcome, runWrite, if_pos hstyled, Action.fail]
            simp [after, hfails]
        · next hplain =>
            split
            · next hnone =>
                have hfails : outcome = ⟨.error .writeWithoutFiles, { files := before }⟩ := by
                  rw [houtcome, runWrite, if_neg hplain, if_pos (by simp [hnone]), Action.fail]
                simp [after, hfails]
            · next hsome =>
                intro hapart
                rw [houtcome]
                exact runWrite_rewrites (by simpa using hplain) hsome hapart

/-- Five files, one of them no Markdown and one no text. Two cannot be replaced, but one of these
is canonical. -/
def desk : Session where
  surroundings :=
    { files.entry?
        | [] | ["desk"] => some .directory
        | ["desk", "a.md"] => some (.file (Bytes.ofText "x"))
        | ["desk", "n.txt"] => some (.file (Bytes.ofText "n"))
        | ["desk", "b.md"] => some (.file (Bytes.ofText "y\n"))
        | ["desk", "c.md"] => some (.file [255])
        | ["desk", "d.md"] => some (.file (Bytes.ofText "z"))
        | _ => none
      directory := ["desk"]
      environment := ⟨fun _ => none⟩
      obstacle?
        | ["desk", "b.md"] | ["desk", "d.md"] => some .permissionDenied
        | _ => none }
  input := []
  events := Document.Prose.read

def onDesk (task : Task) (files : List Path) : Invocation where
  task := task
  files := files
  settingsFile := none
  preferences := {}
  verbose := false

def performOnDesk (task : Task) (files : List Path) : Outcome CommandError Progress Unit :=
  perform desk (onDesk task files) { files := desk.surroundings.files }

theorem fails_on_desk :
    (∀ path ∈ ([⟨"a.md"⟩, ⟨"b.md"⟩] : List Path), ∀ error,
      ¬ Fails desk {} desk.surroundings.files path error) ∧
      Fails desk {} desk.surroundings.files ⟨"c.md"⟩ (.file ⟨"c.md"⟩ .notText) ∧
      Fails desk {} desk.surroundings.files ⟨"d.md"⟩ (.file ⟨"d.md"⟩ .permissionDenied) := by
  have hrewritten : ∀ path ∈ ([⟨"a.md"⟩, ⟨"b.md"⟩] : List Path),
      (rewriteFile desk {} desk.surroundings.files path).isOk = true := by decide +kernel
  have hlocate : desk.surroundings.files.locate desk.surroundings.directory ⟨"d.md"⟩ =
      .ok ["desk", "d.md"] := by decide +kernel
  have htext : formatText desk { options := {} } "z" = .ok (Bytes.ofText "z\n") := by cbv
  refine ⟨?_, .unreadable (by decide +kernel),
    .irreplaceable hlocate rfl htext (by decide +kernel) rfl⟩
  intro path hpath error hfails
  have hok := hrewritten path hpath
  rw [hfails.rewriteFile_eq] at hok
  cases hok

def deskFiles : List Path := [⟨"a.md"⟩, ⟨"n.txt"⟩, ⟨"b.md"⟩, ⟨"c.md"⟩, ⟨"d.md"⟩]

/-- One run stops at a file that cannot be read, and one without that file where the first one
cannot be replaced. -/
theorem desk_rewritten_up_to_failure :
    let before := desk.surroundings.files
    let written := performOnDesk (.format true) deskFiles
    let again := performOnDesk (.format true) (deskFiles.erase ⟨"c.md"⟩)
    (performOnDesk .check deskFiles).state.files = before ∧
      deskFiles.Pairwise (before.Apart ["desk"]) ∧
      Rewrites desk {} deskFiles before written [⟨"a.md"⟩, ⟨"b.md"⟩] [⟨"c.md"⟩, ⟨"d.md"⟩] ∧
      written.result = .error (.file ⟨"c.md"⟩ .notText) ∧
      written.state.files.entry? ["desk", "a.md"] = some (.file (Bytes.ofText "x\n")) ∧
      (∀ name ∈ ["n.txt", "b.md", "c.md", "d.md"],
        written.state.files.entry? ["desk", name] = before.entry? ["desk", name]) ∧
      Rewrites desk {} (deskFiles.erase ⟨"c.md"⟩) before again [⟨"a.md"⟩, ⟨"b.md"⟩] [⟨"d.md"⟩] ∧
      again.result = .error (.file ⟨"d.md"⟩ .permissionDenied) := by
  have hapart : deskFiles.Pairwise (desk.surroundings.files.Apart ["desk"]) := by decide +kernel
  have hload : Settings.load desk.surroundings none {} = .ok {} := by decide +kernel
  have hchecks : (performOnDesk .check deskFiles).state.files = desk.surroundings.files := by
    rw [performOnDesk]
    exact (perform_touches_only_done desk (onDesk .check deskFiles)).1 (by decide)
  have hwrites : ∀ files : List Path, files ≠ [] →
      files.Pairwise (desk.surroundings.files.Apart ["desk"]) →
      ∃ done rest, Rewrites desk {} files desk.surroundings.files
        (performOnDesk (.format true) files) done rest := by
    intro files hfiles hapart
    have hwrites := (perform_touches_only_done desk (onDesk (.format true) files)).2 rfl
    rw [show Settings.load desk.surroundings (onDesk (.format true) files).settingsFile
      (onDesk (.format true) files).preferences = .ok {} from hload] at hwrites
    dsimp only at hwrites
    rw [if_neg (by decide), show (onDesk (.format true) files).files = files from rfl,
      if_neg hfiles] at hwrites
    exact hwrites hapart
  obtain ⟨done, rest, hwritten⟩ := hwrites deskFiles (by decide) hapart
  obtain ⟨done', rest', hagain⟩ := hwrites (deskFiles.erase ⟨"c.md"⟩) (by decide)
    (hapart.sublist List.erase_sublist)
  have hselected : selected {} desk.surroundings.directory deskFiles =
      [⟨"a.md"⟩, ⟨"b.md"⟩] ++ [⟨"c.md"⟩, ⟨"d.md"⟩] := by decide +kernel
  have hselected' : selected {} desk.surroundings.directory (deskFiles.erase ⟨"c.md"⟩) =
      [⟨"a.md"⟩, ⟨"b.md"⟩] ++ [⟨"d.md"⟩] := by decide +kernel
  obtain ⟨hfirsts, hunreadable, hirreplaceable⟩ := fails_on_desk
  obtain ⟨rfl, rfl, hstopped⟩ := hwritten.split_eq hselected hfirsts hunreadable
  obtain ⟨rfl, rfl, hstopped'⟩ := hagain.split_eq hselected' hfirsts hirreplaceable
  have hafter : (performOnDesk (.format true) deskFiles).state.files.entry? ["desk", "a.md"] =
        some (.file (Bytes.ofText "x\n")) ∧
      ∀ name ∈ ["n.txt", "b.md", "c.md", "d.md"],
        (performOnDesk (.format true) deskFiles).state.files.entry? ["desk", name] =
          desk.surroundings.files.entry? ["desk", name] := by decide +kernel
  exact ⟨hchecks, hapart, hwritten, hstopped, hafter.1, hafter.2, hagain, hstopped'⟩

end CanonicalMarkdown.Command
