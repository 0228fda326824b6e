import CanonicalMarkdown.Document.Prose
import CanonicalMarkdown.Proofs.Command.Run
import CanonicalMarkdown.Proofs.Settings.Resolution
import Mathlib

namespace CanonicalMarkdown

def Settings.restyled (settings : Settings) (styled : Bool) : Settings :=
  { settings with options := { settings.options with terminalStyling := styled } }

namespace Command

open Files Output Render

/-! The files that differ are rewritten up to the first that cannot be replaced. -/

def differs (session : Session) (options : Options) (files : FileSystem) (path : Path) : Bool :=
  match formatFile session { options } files path with
  | .ok formatted => !formatted.isCanonical
  | .error _ => false

/-- How rewriting ends by the files that differ and are left. -/
inductive Ends (session : Session) (files : FileSystem) :
    List Path → Except CommandError Unit → Prop
  | complete : Ends session files [] (.ok ())
  | irreplaceable {path : Path} {later : List Path} {location : Location} {cause : FileError}
      (hlocate : files.locate session.surroundings.directory path = .ok location)
      (hobstacle : session.surroundings.obstacle? location = some cause) :
      Ends session files (path :: later) (.error (.file path cause))

namespace Ends

variable {session : Session} {files : FileSystem} {result : Except CommandError Unit}

theorem result_eq {path : Path} {later : List Path} {location : Location} {cause : FileError}
    (hends : Ends session files (path :: later) result)
    (hlocate : files.locate session.surroundings.directory path = .ok location)
    (hobstacle : session.surroundings.obstacle? location = some cause) :
    result = .error (.file path cause) := by
  cases hends with
  | irreplaceable hreached hstops =>
      cases hlocate.symm.trans hreached
      cases hobstacle.symm.trans hstops
      rfl

variable {stuck : List Path} (hends : Ends session files stuck result)
include hends

theorem isOk_iff : result.isOk = true ↔ stuck = [] := by
  cases hends <;> simp [Except.isOk, Except.toBool]

theorem eq_nil_of_free (hfree : ∀ path ∈ stuck, ∀ location,
    files.locate session.surroundings.directory path = .ok location →
      session.surroundings.obstacle? location = none) : stuck = [] ∧ result = .ok () := by
  cases hends with
  | complete => exact ⟨rfl, rfl⟩
  | irreplaceable hlocate hobstacle =>
      have hnone := hfree _ List.mem_cons_self _ hlocate
      cases hobstacle.symm.trans hnone

end Ends

section

variable {session : Session} {options : Options} {files : FileSystem} {paths : List Path}

theorem differs_iff {path : Path} :
    differs session options files path = true ↔
      ∃ source canonical, files.read session.surroundings.directory path = .ok source ∧
        formatText session { options } source = .ok canonical ∧
        canonical ≠ Bytes.ofText source := by
  rw [differs]
  constructor
  · intro hdiffers
    split at hdiffers
    · next formatted hformatted =>
        obtain ⟨hread, htext⟩ := formatFile_eq_ok_iff.mp hformatted
        refine ⟨_, _, hread, htext, fun heq => ?_⟩
        simp [Formatted.isCanonical_iff.mpr heq] at hdiffers
    · cases hdiffers
  · rintro ⟨source, canonical, hread, htext, hother⟩
    have hformatted : formatFile session { options } files path = .ok ⟨source, canonical⟩ :=
      formatFile_eq_ok_iff.mpr ⟨hread, htext⟩
    simp only [hformatted, Bool.not_eq_true', Bool.eq_false_iff]
    exact fun hcanonical => hother (Formatted.isCanonical_iff.mp hcanonical)

theorem differs_of_ok {path : Path} {formatted : Formatted}
    (hformatted : formatFile session { options } files path = .ok formatted) :
    differs session options files path = !formatted.isCanonical := by
  rw [differs, hformatted]

theorem changed_cons_eq_filter {path : Path} {formatted : Formatted}
    (hformatted : formatFile session { options } files path = .ok formatted) :
    (if formatted.isCanonical then [] else [path]) =
      [path].filter (differs session options files) := by
  cases hcanonical : formatted.isCanonical <;> simp [differs_of_ok hformatted, hcanonical]

variable (hformats : ∀ path ∈ paths, ∃ formatted,
  formatFile session { options } files path = .ok formatted)
include hformats

theorem changed_eq_filter_differs :
    (Survey.of (formatFile session { options } files) paths).changed =
      paths.filter (differs session options files) := by
  induction paths with
  | nil => rfl
  | cons path rest ih =>
      obtain ⟨formatted, hformatted⟩ := hformats path List.mem_cons_self
      have hrest := ih fun later hlater => hformats later (List.mem_cons_of_mem _ hlater)
      rw [Survey.of_cons_ok hformatted, Survey.changed_cons, changed_cons_eq_filter hformatted,
        hrest, ← List.filter_append, List.singleton_append]

theorem exists_stuck :
    ∃ stuck, paths.filter (differs session options files) =
        (Survey.of (rewriteFile session { options } files) paths).changed ++ stuck ∧
      Ends session files stuck
        (Survey.of (rewriteFile session { options } files) paths).result := by
  induction paths with
  | nil => exact ⟨[], rfl, .complete⟩
  | cons path rest ih =>
      obtain ⟨stuck, hstuck, hends⟩ :=
        ih fun later hlater => hformats later (List.mem_cons_of_mem _ hlater)
      obtain ⟨error, herror, -⟩ | ⟨formatted, cause, hformatted, hcanonical, hindered, herror⟩ |
        ⟨formatted, hformatted, -, hrewritten⟩ := rewriteFile_cases session { options } files path
      · obtain ⟨formatted, hformatted⟩ := hformats path List.mem_cons_self
        cases herror.symm.trans hformatted
      · obtain ⟨location, hlocate, hobstacle⟩ := hindrance?_eq_some_iff.mp hindered
        have hdiffers : differs session options files path = true := by
          rw [differs_of_ok hformatted, hcanonical, Bool.not_false]
        rw [Survey.of_cons_error herror, List.filter_cons_of_pos hdiffers]
        exact ⟨_, rfl, .irreplaceable hlocate hobstacle⟩
      · refine ⟨stuck, ?_, ?_⟩
        · rw [Survey.of_cons_ok hrewritten, Survey.changed_cons,
            changed_cons_eq_filter hformatted, List.append_assoc, ← hstuck, ← List.filter_append,
            List.singleton_append]
        · rwa [Survey.of_cons_ok hrewritten]

end

/-! What is read once files are rewritten. -/

section

variable {session : Session} {options : Options} {files : FileSystem} {paths : List Path}

theorem read_of_done {entry : Path × Formatted}
    (hdone : entry ∈ (Survey.of (rewriteFile session { options } files) paths).done) :
    files.read session.surroundings.directory entry.1 = .ok entry.2.source :=
  (formatFile_eq_ok_iff.mp (rewriteFile_eq_ok (Survey.format_eq_of_mem hdone)).1).1

theorem entry?_of_done {entry : Path × Formatted} {location : Location}
    (hdone : entry ∈ (Survey.of (rewriteFile session { options } files) paths).done)
    (hlocate : files.locate session.surroundings.directory entry.1 = .ok location) :
    files.entry? location = some (.file (Bytes.ofText entry.2.source)) := by
  obtain ⟨reached, hreached, hentry⟩ := FileSystem.read_eq_ok_iff.mp (read_of_done hdone)
  obtain rfl : reached = location := Except.ok.inj (hreached.symm.trans hlocate)
  exact hentry

theorem alike_rewritten (session : Session) (options : Options) (files : FileSystem)
    (paths : List Path) :
    files.Alike (replaced files session.surroundings.directory
      (Survey.of (rewriteFile session { options } files) paths).done) :=
  alike_replaced fun _ hdone _ hlocate => ⟨_, entry?_of_done hdone hlocate⟩

/-- A file is changed on disk just where it is not canonical. -/
theorem read_replaced_eq_iff (hapart : paths.Pairwise (files.Apart session.surroundings.directory))
    {entry : Path × Formatted}
    (hdone : entry ∈ (Survey.of (rewriteFile session { options } files) paths).done) :
    (replaced files session.surroundings.directory
        (Survey.of (rewriteFile session { options } files) paths).done).read
          session.surroundings.directory entry.1 =
        files.read session.surroundings.directory entry.1 ↔
      entry.2.isCanonical = true := by
  have hread := read_of_done hdone
  obtain ⟨location, hlocate, -⟩ := FileSystem.read_eq_ok_iff.mp hread
  have hentry := entry?_replaced_of_mem hdone hlocate
    (hapart.sublist (Survey.done_sublist _ paths))
  rw [hread, FileSystem.read_eq_ok_iff, (alike_rewritten session options files paths).locate_eq,
    hlocate, Formatted.isCanonical_iff]
  simp [hentry]

/-- A file that rewriting does not come to reads as it did. -/
theorem read_replaced_of_apart {path : Path}
    (hapart : ∀ entry ∈ (Survey.of (rewriteFile session { options } files) paths).done,
      files.Apart session.surroundings.directory entry.1 path) :
    (replaced files session.surroundings.directory
        (Survey.of (rewriteFile session { options } files) paths).done).read
          session.surroundings.directory path =
      files.read session.surroundings.directory path := by
  rw [FileSystem.read_eq, FileSystem.read_eq,
    (alike_rewritten session options files paths).locate_eq]
  cases hlocate : files.locate session.surroundings.directory path with
  | error cause => rfl
  | ok location =>
      have hentry := entry?_replaced_of_not fun entry hentry hreached =>
        hapart entry hentry location hreached hlocate
      simp only [Except.bind, FileSystem.contents, hentry]

theorem exists_changed_of_entry?_ne
    (hapart : paths.Pairwise (files.Apart session.surroundings.directory)) {location : Location}
    {survey : Survey} (hsurvey : Survey.of (rewriteFile session { options } files) paths = survey)
    (hdiffers : FileSystem.entry? (replaced files session.surroundings.directory survey.done)
      location ≠ files.entry? location) :
    ∃ path ∈ survey.changed, files.locate session.surroundings.directory path = .ok location := by
  by_contra hnone
  apply hdiffers
  by_cases hdone : ∃ entry ∈ survey.done,
      files.locate session.surroundings.directory entry.1 = .ok location
  · obtain ⟨entry, hentry, hlocate⟩ := hdone
    have hcanonical : entry.2.isCanonical = true := by
      by_contra hnot
      have hchanged : entry ∈ survey.done.filter (!·.2.isCanonical) :=
        List.mem_filter.mpr ⟨hentry, by simpa using hnot⟩
      exact hnone ⟨entry.1, List.mem_map_of_mem hchanged, hlocate⟩
    subst hsurvey
    rw [entry?_replaced_of_mem hentry hlocate (hapart.sublist (Survey.done_sublist _ paths)),
      entry?_of_done hentry hlocate, Formatted.isCanonical_iff.mp hcanonical]
  · apply entry?_replaced_of_not
    exact fun entry hentry hlocate => hdone ⟨entry, hentry, hlocate⟩

theorem changed_eq_filter_read {survey : Survey}
    (hsurvey : Survey.of (rewriteFile session { options } files) paths = survey)
    (hapart : paths.Pairwise (files.Apart session.surroundings.directory)) :
    survey.changed = paths.filter fun path =>
      (replaced files session.surroundings.directory survey.done).read
        session.surroundings.directory path ≠ files.read session.surroundings.directory path := by
  obtain ⟨rest, hpaths, -⟩ := Survey.exists_rest (rewriteFile session { options } files) paths
  have hsame : ∀ entry ∈ survey.done, _ := fun entry hentry =>
    read_replaced_eq_iff hapart (hsurvey ▸ hentry)
  have hkept : rest.filter (fun path =>
      (replaced files session.surroundings.directory survey.done).read
        session.surroundings.directory path ≠
          files.read session.surroundings.directory path) = [] := by
    rw [hpaths, List.pairwise_append] at hapart
    simp only [List.filter_eq_nil_iff, decide_eq_true_iff, not_not]
    intro path hpath
    subst hsurvey
    exact read_replaced_of_apart fun entry hentry =>
      hapart.2.2 entry.1 (List.mem_map_of_mem hentry) path hpath
  rw [hsurvey] at hpaths hsame
  rw [hpaths, List.filter_append, hkept, List.append_nil, List.filter_map, Survey.changed]
  congr 1
  apply List.filter_congr
  intro entry hdone
  have hentry := hsame entry hdone
  cases hcanonical : entry.2.isCanonical <;> simp_all

end

section

variable {session : Session} {settings : Settings} {files : FileSystem} {paths : List Path}

/-- Of the settings styling does not count, and of the files only those that are selected. -/
theorem runCheck_congr {other : Session} {others : FileSystem} (styled : Bool)
    (hdirectory : other.surroundings.directory = session.surroundings.directory)
    (hevents : other.events = session.events)
    (hreads : ∀ path ∈ selected settings session.surroundings.directory paths,
      others.read session.surroundings.directory path =
        files.read session.surroundings.directory path) :
    runCheck other (settings.restyled styled) paths { files := others } =
      ⟨(runCheck session settings paths { files }).result,
        { (runCheck session settings paths { files }).state with files := others }⟩ := by
  let plain : Options := { settings.options with terminalStyling := false }
  have hsurvey : surveyed other (settings.restyled styled) paths others plain =
      surveyed session settings paths files plain := by
    rw [surveyed, surveyed, hdirectory]
    apply Survey.of_congr
    intro path hpath
    apply formatFile_congr hevents
    rw [hdirectory]
    exact hreads path hpath
  rw [runCheck_eq other _ paths others hsurvey, runCheck_eq session settings paths files rfl,
    hdirectory]
  rfl

end

section

variable {session : Session} {settings : Settings} {files : FileSystem}
  {paths differing : List Path}

/-- Where all files can be formatted checking reports those that differ. -/
theorem runCheck_of_formats (hplain : settings.options.terminalStyling = false)
    (hformats : ∀ path ∈ selected settings session.surroundings.directory paths, ∃ formatted,
      formatFile session { options := settings.options } files path = .ok formatted)
    (hdiffering : (selected settings session.surroundings.directory paths).filter
      (differs session settings.options files) = differing) :
    runCheck session settings paths { files } =
      ⟨if differing = [] then .ok () else .error (.unformatted differing.length),
        { files
          messages := notices settings session.surroundings.directory paths ++
            differing.map ("Would reformat " ++ ·.text) ++
            if differing = [] then
              [toString (selected settings session.surroundings.directory paths).length ++
                " file(s) already formatted"]
            else []
          changed := differing.length }⟩ := by
  have hoptions : { settings.options with terminalStyling := false } = settings.options := by
    rw [← hplain]
  have hresult : (surveyed session settings paths files settings.options).result = .ok () :=
    (Survey.of_complete hformats).1
  have hchanged : (surveyed session settings paths files settings.options).changed = differing :=
    (changed_eq_filter_differs hformats).trans hdiffering
  have hverdict : (surveyed session settings paths files settings.options).verdict =
      if differing = [] then .ok () else .error (.unformatted differing.length) := by
    simp only [Survey.verdict, hresult, hchanged]
  rw [runCheck_eq session settings paths files (congrArg _ hoptions), hverdict, hchanged]
  by_cases hnone : differing = [] <;> simp [hnone, Except.isOk, Except.toBool]

end

/-- Checking finds the files that differ from their canonical form, and rewriting changes the same
ones, or those before the first that cannot be replaced. Both pass over the same files and say so,
and styling makes no difference to checking. -/
theorem check_agrees_with_write (session : Session) (invocation : Invocation) :
    let directory := session.surroundings.directory
    let before := session.surroundings.files
    let checked := perform session { invocation with task := .check } { files := before }
    let written := perform session { invocation with task := .format true } { files := before }
    let after := written.state.files
    (∀ settings,
      Settings.load session.surroundings invocation.settingsFile invocation.preferences =
        .ok settings →
      settings.options.terminalStyling = false → invocation.files ≠ [] →
      let chosen := selected settings directory invocation.files
      chosen.Pairwise (before.Apart directory) →
      (∀ path ∈ chosen, ∃ formatted,
        formatFile session { options := settings.options } before path = .ok formatted) →
      let differing := chosen.filter (differs session settings.options before)
      let changed := chosen.filter fun path =>
        after.read directory path ≠ before.read directory path
      checked.result =
          (if differing = [] then .ok () else .error (.unformatted differing.length)) ∧
        checked.state.messages =
          notices settings directory invocation.files ++
            differing.map ("Would reformat " ++ ·.text) ++
            (if differing = [] then
              [toString chosen.length ++ " file(s) already formatted"]
            else []) ∧
        written.state.changed = changed.length ∧
        (∃ stuck, differing = changed ++ stuck ∧ Ends session before stuck written.result ∧
          written.state.messages =
            notices settings directory invocation.files ++ changed.map ("Formatted " ++ ·.text) ++
              (if stuck = [] then
                [toString changed.length ++ " of " ++ toString chosen.length ++
                  " file(s) reformatted"]
              else [])) ∧
        ((∀ path ∈ differing, ∀ location, before.locate directory path = .ok location →
            session.surroundings.obstacle? location = none) →
          changed = differing ∧ written.result = .ok ()) ∧
        ∀ location, after.entry? location ≠ before.entry? location →
          ∃ path ∈ changed, before.locate directory path = .ok location) ∧
    (∀ flag, perform session
      { invocation with
        task := .check
        preferences := { invocation.preferences with terminalStyling := flag } }
      { files := before } = checked) ∧
    ∀ settings,
      Settings.load session.surroundings invocation.settingsFile invocation.preferences =
        .ok settings →
      ∀ (other : Session) (styled : Bool),
        other.surroundings.directory = directory → other.events = session.events →
        (∀ path ∈ selected settings directory invocation.files,
          other.surroundings.files.read directory path = before.read directory path) →
        Settings.load other.surroundings invocation.settingsFile invocation.preferences =
          .ok (settings.restyled styled) →
        let again := perform other { invocation with task := .check }
          { files := other.surroundings.files }
        again.result = checked.result ∧ again.state.messages = checked.state.messages := by
  intro directory before checked written after
  have hchecks : ∀ settings, Settings.load session.surroundings invocation.settingsFile
      invocation.preferences = .ok settings →
      checked = runCheck session settings invocation.files { files := before } := by
    intro settings hload
    simp only [checked, perform, hload]
  refine ⟨?_, ?_, ?_⟩
  · intro settings hload hplain hfiles chosen hapart hformats differing changed
    let survey := rewritten session settings invocation.files before
    have hwritten : written = runWrite session settings invocation.files { files := before } := by
      simp only [written, perform, hload]
    rw [runWrite_eq session settings invocation.files before (rfl : _ = survey) hplain hfiles
      hapart] at hwritten
    have hchanged : survey.changed = changed := by
      simp only [changed, after, hwritten]
      exact changed_eq_filter_read rfl hapart
    obtain ⟨stuck, hstuck, hends⟩ := exists_stuck hformats
    change differing = survey.changed ++ stuck at hstuck
    change Ends session before stuck survey.result at hends
    -- Rewriting accepts plain settings only, so both commands format with the same ones.
    rw [hchecks settings hload, runCheck_of_formats hplain hformats rfl, ← hchanged]
    refine ⟨rfl, rfl, congrArg (·.state.changed) hwritten, ⟨stuck, hstuck, ?_, ?_⟩, ?_, ?_⟩
    · rwa [hwritten]
    · rw [hwritten]
      simp only [hends.isOk_iff]
      rfl
    · intro hfree
      rw [hstuck] at hfree ⊢
      obtain ⟨rfl, hresult⟩ :=
        hends.eq_nil_of_free fun path hpath => hfree path (List.mem_append_right _ hpath)
      rw [hwritten, List.append_nil]
      exact ⟨rfl, hresult⟩
    · intro location hdiffers
      simp only [after, hwritten] at hdiffers
      exact exists_changed_of_entry?_ne hapart rfl hdiffers
  · intro flag
    simp only [checked, perform, Settings.load_eq_map]
    cases Settings.loadStated session.surroundings invocation.settingsFile with
    | error cause => rfl
    | ok stated =>
        have hflag : stated.prefer { invocation.preferences with terminalStyling := flag } =
          (stated.prefer invocation.preferences).restyled
            (flag.getD stated.options.terminalStyling) := rfl
        simp only [Except.map, hflag]
        rw [runCheck_congr _ rfl rfl fun path hpath => rfl]
        rw [runCheck_eq _ _ _ _ rfl]
  · intro settings hload other styled hdirectory hevents hreads hother again
    have hagain : again = runCheck other (settings.restyled styled) invocation.files
        { files := other.surroundings.files } := by
      simp only [again, perform, hother]
    rw [hagain, hchecks settings hload, runCheck_congr styled hdirectory hevents hreads]
    exact ⟨rfl, rfl⟩

/-- Four files, one of them no Markdown and two not canonical. -/
def shelf (styling : String) (obstacle? : Location → Option FileError) : Session where
  surroundings :=
    { files.entry?
        | [] | ["shelf"] => some .directory
        | ["shelf", "mdfmt.toml"] =>
            some (.file (Bytes.ofText ("[render]\nterminal_styling = " ++ styling ++ "\n")))
        | ["shelf", "a.md"] => some (.file (Bytes.ofText "x"))
        | ["shelf", "n.txt"] => some (.file (Bytes.ofText "n"))
        | ["shelf", "b.md"] => some (.file (Bytes.ofText "y\n"))
        | ["shelf", "d.md"] => some (.file (Bytes.ofText "z"))
        | _ => none
      directory := ["shelf"]
      environment := ⟨fun _ => none⟩
      obstacle? := obstacle? }
  input := []
  events := Document.Prose.read

def unguarded : Location → Option FileError := fun _ => none

def lastGuarded : Location → Option FileError := fun location =>
  if location = ["shelf", "d.md"] then some .readOnly else none

def onShelf : Invocation where
  task := .check
  files := [⟨"a.md"⟩, ⟨"n.txt"⟩, ⟨"b.md"⟩, ⟨"d.md"⟩]
  settingsFile := none
  preferences := {}
  verbose := false

def shelfSettings : Settings := { file := some ⟨"/shelf/mdfmt.toml"⟩ }

def checkShelf (session : Session) : Outcome CommandError Progress Unit :=
  perform session { onShelf with task := .check } { files := session.surroundings.files }

def rewriteShelf (session : Session) : Outcome CommandError Progress Unit :=
  perform session { onShelf with task := .format true } { files := session.surroundings.files }

section

variable (obstacle? : Location → Option FileError)

theorem apart_on_shelf :
    (selected shelfSettings (shelf "false" obstacle?).surroundings.directory
      onShelf.files).Pairwise ((shelf "false" obstacle?).surroundings.files.Apart
        (shelf "false" obstacle?).surroundings.directory) := by
  have hapart : (selected shelfSettings ["shelf"] onShelf.files).Pairwise
      ((shelf "false" unguarded).surroundings.files.Apart ["shelf"]) := by decide +kernel
  exact hapart

theorem formats_on_shelf : ∀ path ∈
    selected shelfSettings (shelf "false" obstacle?).surroundings.directory onShelf.files,
    ∃ formatted, formatFile (shelf "false" obstacle?) { options := shelfSettings.options }
      (shelf "false" obstacle?).surroundings.files path = .ok formatted := by
  have hformats : ∀ path ∈ selected shelfSettings ["shelf"] onShelf.files,
      (formatFile (shelf "false" unguarded) { options := shelfSettings.options }
        (shelf "false" unguarded).surroundings.files path).isOk = true := by decide +kernel
  intro path hpath
  have hformat := hformats path hpath
  have hsame : formatFile (shelf "false" obstacle?) { options := shelfSettings.options }
      (shelf "false" obstacle?).surroundings.files path =
      formatFile (shelf "false" unguarded) { options := shelfSettings.options }
        (shelf "false" unguarded).surroundings.files path := formatFile_congr rfl rfl
  rw [← hsame] at hformat
  cases hformatted : formatFile (shelf "false" obstacle?) { options := shelfSettings.options }
      (shelf "false" obstacle?).surroundings.files path with
  | error error =>
      rw [hformatted] at hformat
      cases hformat
  | ok formatted => exact ⟨formatted, rfl⟩

theorem differing_on_shelf :
    (selected shelfSettings (shelf "false" obstacle?).surroundings.directory onShelf.files).filter
        (differs (shelf "false" obstacle?) shelfSettings.options
          (shelf "false" obstacle?).surroundings.files) = [⟨"a.md"⟩, ⟨"d.md"⟩] := by
  have hdiffering : (selected shelfSettings ["shelf"] onShelf.files).filter
      (differs (shelf "false" unguarded) shelfSettings.options
        (shelf "false" unguarded).surroundings.files) = [⟨"a.md"⟩, ⟨"d.md"⟩] := by decide +kernel
  exact hdiffering

end

/-- Two files are found, also where the settings ask for styling. Two are rewritten, or one if the
other cannot be replaced. -/
theorem shelf_agrees :
    (checkShelf (shelf "false" unguarded)).result = .error (.unformatted 2) ∧
      (rewriteShelf (shelf "false" unguarded)).result = .ok () ∧
      (rewriteShelf (shelf "false" unguarded)).state.changed = 2 ∧
      (checkShelf (shelf "true" unguarded)).result = .error (.unformatted 2) ∧
      (checkShelf (shelf "false" lastGuarded)).result = .error (.unformatted 2) ∧
      (rewriteShelf (shelf "false" lastGuarded)).result = .error (.file ⟨"d.md"⟩ .readOnly) ∧
      (rewriteShelf (shelf "false" lastGuarded)).state.changed = 1 := by
  obtain ⟨hagrees, -, hstyled⟩ := check_agrees_with_write (shelf "false" unguarded) onShelf
  obtain ⟨hguarded, -, -⟩ := check_agrees_with_write (shelf "false" lastGuarded) onShelf
  have hload : Settings.load (shelf "false" unguarded).surroundings none {} =
      .ok shelfSettings := by decide +kernel
  have hload' : Settings.load (shelf "false" lastGuarded).surroundings none {} =
      .ok shelfSettings := by decide +kernel
  have hloadStyled : Settings.load (shelf "true" unguarded).surroundings none {} =
      .ok (shelfSettings.restyled true) := by decide +kernel
  have hagrees := hagrees shelfSettings hload rfl (by decide) (apart_on_shelf _)
    (formats_on_shelf _)
  have hguarded := hguarded shelfSettings hload' rfl (by decide) (apart_on_shelf _)
    (formats_on_shelf _)
  simp only [differing_on_shelf] at hagrees hguarded
  obtain ⟨hchecked, -, hcount, -, hfree, -⟩ := hagrees
  obtain ⟨hchecked', -, hcount', ⟨stuck, hstuck, hends, -⟩, -, -⟩ := hguarded
  obtain ⟨hchanged, hdone⟩ := hfree fun _ _ _ _ => rfl
  obtain ⟨hchecked'', -⟩ := hstyled shelfSettings hload (shelf "true" unguarded) true rfl rfl
    (by decide +kernel) hloadStyled
  have hone : (rewriteShelf (shelf "false" lastGuarded)).state.changed = 1 := by decide +kernel
  rw [hchanged] at hcount
  have hlocate : (shelf "false" lastGuarded).surroundings.files.locate
      (shelf "false" lastGuarded).surroundings.directory ⟨"d.md"⟩ = .ok ["shelf", "d.md"] := by
    decide +kernel
  simp only [checkShelf, rewriteShelf] at hone ⊢
  rw [hone] at hcount'
  obtain ⟨first, hfirst⟩ := List.length_eq_one_iff.mp hcount'.symm
  rw [hfirst] at hstuck
  obtain rfl : stuck = [⟨"d.md"⟩] := (List.cons.inj hstuck).2.symm
  have hstopped := hends.result_eq hlocate rfl
  exact ⟨hchecked, hdone, hcount, hchecked''.trans hchecked, hchecked', hstopped, hone⟩

end Command

end CanonicalMarkdown
