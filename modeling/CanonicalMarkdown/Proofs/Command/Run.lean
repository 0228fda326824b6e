import CanonicalMarkdown.Command.Run
import CanonicalMarkdown.Proofs.Files.FileSystem
import CanonicalMarkdown.Proofs.Output.Comparison
import Mathlib

namespace CanonicalMarkdown.Command

open Files Output Render

/-! One file. -/

theorem Formatted.isCanonical_iff {formatted : Formatted} :
    formatted.isCanonical = true ↔ formatted.canonical = Bytes.ofText formatted.source :=
  beq_iff_eq

section

variable {session : Session} {formatter : Formatter} {files : FileSystem} {path : Path}

theorem formatFile_eq_ok_iff {formatted : Formatted} :
    formatFile session formatter files path = .ok formatted ↔
      files.read session.surroundings.directory path = .ok formatted.source ∧
        formatText session formatter formatted.source = .ok formatted.canonical := by
  rw [formatFile]
  constructor
  · intro hformatted
    split at hformatted
    · cases hformatted
    · next source hread =>
        split at hformatted
        · cases hformatted
        · next canonical htext =>
            cases hformatted
            exact ⟨hread, htext⟩
  · rintro ⟨hread, htext⟩
    simp only [hread, htext]

/-- A file that cannot be read or formatted is named in the error. -/
theorem formatFile_eq_error {error : CommandError}
    (herror : formatFile session formatter files path = .error error) :
    (∃ cause, files.read session.surroundings.directory path = .error cause ∧
      error = .file path cause) ∨
    ∃ source cause, files.read session.surroundings.directory path = .ok source ∧
      formatText session formatter source = .error cause ∧ error = .format path cause := by
  rw [formatFile] at herror
  split at herror
  · next cause hread => exact .inl ⟨cause, hread, (Except.error.inj herror).symm⟩
  · next source hread =>
      split at herror
      · next cause htext =>
          exact .inr ⟨source, cause, hread, htext, (Except.error.inj herror).symm⟩
      · cases herror

/-- Of all files only the one that is formatted counts. -/
theorem formatFile_congr {other : Session} {others : FileSystem}
    (hevents : other.events = session.events)
    (hread : others.read other.surroundings.directory path =
      files.read session.surroundings.directory path) :
    formatFile other formatter others path = formatFile session formatter files path := by
  simp only [formatFile, formatText, hread, hevents]

end

/-! A file that is not canonical yet has to be replaced as well. -/

/-- What is in the way of replacing the file that a path leads to. -/
def hindrance? (session : Session) (files : FileSystem) (path : Path) : Option FileError :=
  match files.locate session.surroundings.directory path with
  | .ok location => session.surroundings.obstacle? location
  | .error _ => none

def rewriteFile (session : Session) (formatter : Formatter) (files : FileSystem) (path : Path) :
    Except CommandError Formatted := do
  let formatted ← formatFile session formatter files path
  match hindrance? session files path with
  | some cause => if formatted.isCanonical then return formatted else throw (.file path cause)
  | none => return formatted

section

variable {session : Session} {formatter : Formatter} {files : FileSystem} {path : Path}

theorem hindrance?_eq_some_iff {cause : FileError} :
    hindrance? session files path = some cause ↔
      ∃ location, files.locate session.surroundings.directory path = .ok location ∧
        session.surroundings.obstacle? location = some cause := by
  rw [hindrance?]
  split <;> simp_all

theorem rewriteFile_of_error {error : CommandError}
    (herror : formatFile session formatter files path = .error error) :
    rewriteFile session formatter files path = .error error := by
  rw [rewriteFile, herror]
  rfl

section

variable {formatted : Formatted}
  (hformatted : formatFile session formatter files path = .ok formatted)
include hformatted

theorem rewriteFile_of_ok :
    rewriteFile session formatter files path =
      match hindrance? session files path with
      | some cause => if formatted.isCanonical then .ok formatted else .error (.file path cause)
      | none => .ok formatted := by
  rw [rewriteFile, hformatted]
  rfl

theorem rewriteFile_of_free
    (hfree : formatted.isCanonical = true ∨ hindrance? session files path = none) :
    rewriteFile session formatter files path = .ok formatted := by
  rw [rewriteFile_of_ok hformatted]
  rcases hfree with hcanonical | hfree
  · split
    · exact if_pos hcanonical
    · rfl
  · rw [hfree]

theorem rewriteFile_of_hindered {cause : FileError} (hdiffers : formatted.isCanonical = false)
    (hindered : hindrance? session files path = some cause) :
    rewriteFile session formatter files path = .error (.file path cause) := by
  rw [rewriteFile_of_ok hformatted, hindered]
  exact if_neg (by simp [hdiffers])

end

/-- Formatting is all there is to it, unless the file differs and is not to be replaced. -/
theorem rewriteFile_cases (session : Session) (formatter : Formatter) (files : FileSystem)
    (path : Path) :
    (∃ error, formatFile session formatter files path = .error error ∧
      rewriteFile session formatter files path = .error error) ∨
    (∃ formatted cause, formatFile session formatter files path = .ok formatted ∧
      formatted.isCanonical = false ∧ hindrance? session files path = some cause ∧
      rewriteFile session formatter files path = .error (.file path cause)) ∨
    ∃ formatted, formatFile session formatter files path = .ok formatted ∧
      (formatted.isCanonical = true ∨ hindrance? session files path = none) ∧
      rewriteFile session formatter files path = .ok formatted := by
  cases hformat : formatFile session formatter files path with
  | error error => exact .inl ⟨error, rfl, rewriteFile_of_error hformat⟩
  | ok formatted =>
      cases hcanonical : formatted.isCanonical with
      | true =>
          exact .inr (.inr ⟨formatted, rfl, .inl hcanonical,
            rewriteFile_of_free hformat (.inl hcanonical)⟩)
      | false =>
          cases hindered : hindrance? session files path with
          | none =>
              exact .inr (.inr ⟨formatted, rfl, .inr rfl,
                rewriteFile_of_free hformat (.inr hindered)⟩)
          | some cause =>
              exact .inr (.inl ⟨formatted, cause, rfl, hcanonical, rfl,
                rewriteFile_of_hindered hformat hcanonical hindered⟩)

theorem rewriteFile_eq_ok {formatted : Formatted}
    (hrewritten : rewriteFile session formatter files path = .ok formatted) :
    formatFile session formatter files path = .ok formatted ∧
      (formatted.isCanonical = true ∨ hindrance? session files path = none) := by
  obtain ⟨error, -, herror⟩ | ⟨-, cause, -, -, -, herror⟩ | ⟨own, hformatted, hfree, hown⟩ :=
    rewriteFile_cases session formatter files path
  · cases hrewritten.symm.trans herror
  · cases hrewritten.symm.trans herror
  · cases hrewritten.symm.trans hown
    exact ⟨hformatted, hfree⟩

/-- Of all files only the one that is rewritten counts. -/
theorem rewriteFile_congr {others : FileSystem}
    (hread : others.read session.surroundings.directory path =
      files.read session.surroundings.directory path)
    (hlocate : others.locate session.surroundings.directory path =
      files.locate session.surroundings.directory path) :
    rewriteFile session formatter others path = rewriteFile session formatter files path := by
  simp only [rewriteFile, hindrance?, hlocate, formatFile_congr rfl hread]

end

/-! Several files, up to the first that fails. -/

structure Survey where
  done : List (Path × Formatted)
  result : Except CommandError Unit

namespace Survey

def of (format : Path → Except CommandError Formatted) : List Path → Survey
  | [] => ⟨[], .ok ()⟩
  | path :: rest =>
      match format path with
      | .error error => ⟨[], .error error⟩
      | .ok formatted => ⟨(path, formatted) :: (of format rest).done, (of format rest).result⟩

/-- The files whose canonical form differs from what they hold. -/
def changed (survey : Survey) : List Path :=
  (survey.done.filter (!·.2.isCanonical)).map Prod.fst

section

variable {format : Path → Except CommandError Formatted}

theorem of_cons_error {path : Path} {error : CommandError} (hformat : format path = .error error)
    (rest : List Path) : of format (path :: rest) = ⟨[], .error error⟩ := by
  rw [of, hformat]

theorem of_cons_ok {path : Path} {formatted : Formatted} (hformat : format path = .ok formatted)
    (rest : List Path) :
    of format (path :: rest) =
      ⟨(path, formatted) :: (of format rest).done, (of format rest).result⟩ := by
  rw [of, hformat]

theorem of_congr {other : Path → Except CommandError Formatted} {paths : List Path}
    (hsame : ∀ path ∈ paths, other path = format path) : of other paths = of format paths := by
  induction paths with
  | nil => rfl
  | cons path rest ih =>
      rw [of, of, hsame path (by simp), ih fun later hlater => hsame later (by simp [hlater])]

theorem format_eq_of_mem {paths : List Path} {path : Path} {formatted : Formatted}
    (hdone : (path, formatted) ∈ (of format paths).done) : format path = .ok formatted := by
  induction paths with
  | nil => cases hdone
  | cons first rest ih =>
      cases hfirst : format first with
      | error error =>
          rw [of_cons_error hfirst] at hdone
          cases hdone
      | ok own =>
          rw [of_cons_ok hfirst] at hdone
          rcases List.mem_cons.mp hdone with heq | hdone
          · cases heq
            exact hfirst
          · exact ih hdone

/-- What was done is the leading part of the list, and the rest starts with what failed. -/
theorem exists_rest (format : Path → Except CommandError Formatted) (paths : List Path) :
    ∃ rest, paths = (of format paths).done.map Prod.fst ++ rest ∧
      match rest with
      | [] => (of format paths).result = .ok ()
      | path :: _ => ∃ error, format path = .error error ∧
          (of format paths).result = .error error := by
  induction paths with
  | nil => exact ⟨[], rfl, rfl⟩
  | cons path rest ih =>
      cases hformat : format path with
      | error error =>
          rw [of_cons_error hformat]
          exact ⟨path :: rest, rfl, error, hformat, rfl⟩
      | ok formatted =>
          obtain ⟨later, hrest, hends⟩ := ih
          rw [of_cons_ok hformat]
          exact ⟨later, congrArg (path :: ·) hrest, hends⟩

theorem done_sublist (format : Path → Except CommandError Formatted) (paths : List Path) :
    ((of format paths).done.map Prod.fst).Sublist paths := by
  obtain ⟨rest, hpaths, -⟩ := exists_rest format paths
  exact List.IsPrefix.sublist ⟨rest, hpaths.symm⟩

theorem mem_of_mem_done {paths : List Path} {entry : Path × Formatted}
    (hdone : entry ∈ (of format paths).done) : entry.1 ∈ paths :=
  (done_sublist format paths).subset (List.mem_map_of_mem hdone)

theorem of_complete {paths : List Path}
    (hformats : ∀ path ∈ paths, ∃ formatted, format path = .ok formatted) :
    (of format paths).result = .ok () ∧ (of format paths).done.map Prod.fst = paths := by
  obtain ⟨rest, hpaths, hends⟩ := exists_rest format paths
  cases rest with
  | nil => exact ⟨hends, by simpa using hpaths.symm⟩
  | cons path rest =>
      obtain ⟨error, herror, -⟩ := hends
      obtain ⟨formatted, hformatted⟩ := hformats path (by rw [hpaths]; simp)
      rw [herror] at hformatted
      cases hformatted

end

theorem changed_cons (path : Path) (formatted : Formatted) (done : List (Path × Formatted))
    (result : Except CommandError Unit) :
    changed ⟨(path, formatted) :: done, result⟩ =
      (if formatted.isCanonical then [] else [path]) ++ changed ⟨done, result⟩ := by
  cases hcanonical : formatted.isCanonical <;> simp [changed, hcanonical]

end Survey

/-! What a run reports. -/

namespace Progress

/-- One message for each file that differed. -/
def noted (progress : Progress) (messages : List String) : Progress :=
  { progress with
    messages := progress.messages ++ messages
    changed := progress.changed + messages.length }

@[simp] theorem noted_nil (progress : Progress) : progress.noted [] = progress := by
  simp [noted]

theorem noted_noted (progress : Progress) (first second : List String) :
    (progress.noted first).noted second = progress.noted (first ++ second) := by
  simp [noted, Nat.add_assoc]

@[simp] theorem files_noted (progress : Progress) (messages : List String) :
    (progress.noted messages).files = progress.files := rfl

end Progress

/-- The messages about files that are passed over. -/
def notices (settings : Settings) (directory : Location) (paths : List Path) : List String :=
  (paths.filter (select settings directory · == .otherKind)).map fun path =>
    "Skipping " ++ path.text ++ ": not a markdown file"

theorem reportSkipped_eq (settings : Settings) (directory : Location) (paths : List Path)
    (progress : Progress) :
    reportSkipped settings directory paths progress =
      ⟨.ok (), { progress with
        messages := progress.messages ++ notices settings directory paths }⟩ := by
  induction paths generalizing progress with
  | nil => simp [reportSkipped, notices, Action.skip]
  | cons path rest ih =>
      rw [reportSkipped]
      by_cases hkind : select settings directory path = .otherKind
      · simp [Action.andThen, say, ih, notices, hkind]
      · simp [Action.andThen, Action.skip, ih, notices, hkind]

/-! Checking. -/

section

variable {session : Session} {formatter : Formatter} {path : Path} {progress : Progress}

theorem withFormatted_of_error {error : CommandError} (next : Formatted → Doing)
    (herror : formatFile session formatter progress.files path = .error error) :
    withFormatted session formatter path next progress = ⟨.error error, progress⟩ := by
  rw [withFormatted, herror]

theorem withFormatted_of_ok {formatted : Formatted} (next : Formatted → Doing)
    (hformatted : formatFile session formatter progress.files path = .ok formatted) :
    withFormatted session formatter path next progress = next formatted progress := by
  rw [withFormatted, hformatted]

theorem checkFile_of_ok {formatted : Formatted}
    (hformatted : formatFile session formatter progress.files path = .ok formatted) :
    checkFile session formatter path progress =
      ⟨.ok (), progress.noted
        ((if formatted.isCanonical then [] else [path]).map ("Would reformat " ++ ·.text))⟩ := by
  rw [checkFile, withFormatted_of_ok _ hformatted]
  split <;> simp [Action.skip, Action.andThen, say, noteChange, Progress.noted]

theorem forEach_checkFile (session : Session) (formatter : Formatter) (paths : List Path)
    (progress : Progress) :
    forEach (checkFile session formatter) paths progress =
      ⟨(Survey.of (formatFile session formatter progress.files) paths).result,
        progress.noted ((Survey.of (formatFile session formatter progress.files) paths).changed.map
          ("Would reformat " ++ ·.text))⟩ := by
  induction paths generalizing progress with
  | nil => simp [forEach, Survey.of, Survey.changed, Action.skip]
  | cons path rest ih =>
      cases hformat : formatFile session formatter progress.files path with
      | error error =>
          have hstep : checkFile session formatter path progress = ⟨.error error, progress⟩ :=
            withFormatted_of_error _ hformat
          simp [forEach, Action.andThen, hstep, Survey.of_cons_error hformat, Survey.changed]
      | ok formatted =>
          simp only [forEach, Action.andThen, checkFile_of_ok hformat, ih, Progress.files_noted,
            Progress.noted_noted, Survey.of_cons_ok hformat, Survey.changed_cons, List.map_append]

end

/-! Rewriting. -/

/-- The files once all that were done hold their canonical form. -/
def replaced (files : FileSystem) (directory : Location) (done : List (Path × Formatted)) :
    FileSystem where
  entry? location :=
    match done.find? fun entry => files.locate directory entry.1 = .ok location with
    | some entry => some (.file entry.2.canonical)
    | none => files.entry? location

section

variable {files : FileSystem} {directory : Location} {done : List (Path × Formatted)}
  {location : Location}

theorem entry?_replaced_of_not (hnot : ∀ entry ∈ done,
    files.locate directory entry.1 ≠ .ok location) :
    FileSystem.entry? (replaced files directory done) location = files.entry? location := by
  have hnone : (done.find? fun entry => files.locate directory entry.1 = .ok location) = none := by
    rw [List.find?_eq_none]
    simpa using hnot
  simp only [replaced, hnone]

theorem entry?_replaced_of_mem {path : Path} {formatted : Formatted}
    (hdone : (path, formatted) ∈ done)
    (hlocate : files.locate directory path = .ok location)
    (hapart : (done.map Prod.fst).Pairwise (files.Apart directory)) :
    FileSystem.entry? (replaced files directory done) location =
      some (.file formatted.canonical) := by
  induction done with
  | nil => cases hdone
  | cons first rest ih =>
      rw [List.map_cons, List.pairwise_cons] at hapart
      rcases List.mem_cons.mp hdone with rfl | hdone
      · simp [replaced, hlocate]
      · have hfirst : files.locate directory first.1 ≠ .ok location := by
          intro hfirst
          exact hapart.1 path (List.mem_map.mpr ⟨_, hdone, rfl⟩) location hfirst hlocate
        have hrest := ih hdone hapart.2
        simpa [replaced, hfirst] using hrest

theorem alike_replaced (hfiles : ∀ entry ∈ done, ∀ location,
    files.locate directory entry.1 = .ok location →
      ∃ old, files.entry? location = some (.file old)) :
    files.Alike (replaced files directory done) := by
  intro location
  cases hfind : done.find? fun entry => files.locate directory entry.1 = .ok location with
  | none => simp only [replaced, hfind]
  | some entry =>
      have hlocate : files.locate directory entry.1 = .ok location := by
        simpa using List.find?_some hfind
      obtain ⟨old, hold⟩ := hfiles entry (List.mem_of_find?_eq_some hfind) location hlocate
      simp only [replaced, hfind, hold]
      rfl

/-- Files may be replaced one after the other where no two of them are the same. -/
theorem replaced_cons {path : Path} {formatted : Formatted} {old : Bytes}
    (hlocate : files.locate directory path = .ok location)
    (hold : files.entry? location = some (.file old))
    (hapart : ∀ entry ∈ done, files.Apart directory path entry.1) :
    replaced files directory ((path, formatted) :: done) =
      replaced (files.put location formatted.canonical) directory done := by
  ext other : 1
  by_cases hother : other = location
  · have hlater : FileSystem.entry?
        (replaced (files.put location formatted.canonical) directory done) location =
        some (.file formatted.canonical) := by
      rw [entry?_replaced_of_not, FileSystem.entry?_put_self]
      intro entry hmem
      rw [FileSystem.locate_put hold]
      exact hapart entry hmem location hlocate
    rw [hother, hlater]
    simp [replaced, hlocate]
  · simp [replaced, hlocate, Ne.symm hother, FileSystem.locate_put hold,
      FileSystem.entry?_put_of_ne files hother]

end

section

variable {session : Session} {formatter : Formatter} {path : Path} {progress : Progress}

/-- A file that is canonical already might as well have been written. -/
theorem formatInPlace_of_ok {formatted : Formatted}
    (hrewritten : rewriteFile session formatter progress.files path = .ok formatted) :
    ∃ location, progress.files.locate session.surroundings.directory path = .ok location ∧
      progress.files.entry? location = some (.file (Bytes.ofText formatted.source)) ∧
      formatInPlace session formatter path progress =
        ⟨.ok (), Progress.noted
          { progress with files := progress.files.put location formatted.canonical }
          ((if formatted.isCanonical then [] else [path]).map ("Formatted " ++ ·.text))⟩ := by
  obtain ⟨hformatted, hfree⟩ := rewriteFile_eq_ok hrewritten
  obtain ⟨hread, -⟩ := formatFile_eq_ok_iff.mp hformatted
  obtain ⟨location, hlocate, hold⟩ := FileSystem.read_eq_ok_iff.mp hread
  refine ⟨location, hlocate, hold, ?_⟩
  rw [formatInPlace, withFormatted_of_ok _ hformatted]
  split
  · next hcanonical =>
      rw [Formatted.isCanonical_iff.mp hcanonical, FileSystem.put_self hold]
      simp [Action.skip]
  · next hdiffers =>
      have hobstacle : session.surroundings.obstacle? location = none := by
        simpa [hindrance?, hlocate] using hfree.resolve_left hdiffers
      simp [Action.andThen, replaceFile, FileSystem.write_eq_put hold _ hlocate hobstacle, say,
        noteChange, Progress.noted]

/-- A file that fails leaves everything as it was, also where only its replacement failed. -/
theorem formatInPlace_of_error {error : CommandError}
    (herror : rewriteFile session formatter progress.files path = .error error) :
    formatInPlace session formatter path progress = ⟨.error error, progress⟩ := by
  obtain ⟨own, hformat, hown⟩ | ⟨formatted, cause, hformatted, hdiffers, hindered, hown⟩ |
    ⟨formatted, -, -, hrewritten⟩ := rewriteFile_cases session formatter progress.files path
  · cases herror.symm.trans hown
    exact withFormatted_of_error _ hformat
  · cases herror.symm.trans hown
    obtain ⟨hread, -⟩ := formatFile_eq_ok_iff.mp hformatted
    obtain ⟨location, hlocate, hold⟩ := FileSystem.read_eq_ok_iff.mp hread
    have hobstacle : session.surroundings.obstacle? location = some cause := by
      simpa [hindrance?, hlocate] using hindered
    rw [formatInPlace, withFormatted_of_ok _ hformatted]
    simp [hdiffers, Action.andThen, replaceFile, FileSystem.write_eq_error hold _ hlocate hobstacle]
  · cases herror.symm.trans hrewritten

theorem forEach_formatInPlace (session : Session) (formatter : Formatter) {paths : List Path}
    (progress : Progress)
    (hapart : paths.Pairwise (progress.files.Apart session.surroundings.directory)) :
    forEach (formatInPlace session formatter) paths progress =
      ⟨(Survey.of (rewriteFile session formatter progress.files) paths).result,
        Progress.noted
          { progress with
            files := replaced progress.files session.surroundings.directory
              (Survey.of (rewriteFile session formatter progress.files) paths).done }
          ((Survey.of (rewriteFile session formatter progress.files) paths).changed.map
            ("Formatted " ++ ·.text))⟩ := by
  induction paths generalizing progress with
  | nil => simp [forEach, Survey.of, Survey.changed, Action.skip, replaced]
  | cons path rest ih =>
      rw [List.pairwise_cons] at hapart
      cases hrewrite : rewriteFile session formatter progress.files path with
      | error error =>
          have hstep := formatInPlace_of_error hrewrite
          simp [forEach, Action.andThen, hstep, Survey.of_cons_error hrewrite, Survey.changed,
            replaced]
      | ok formatted =>
          obtain ⟨location, hlocate, hold, hstep⟩ := formatInPlace_of_ok hrewrite
          have hreads : ∀ later ∈ rest,
              rewriteFile session formatter (progress.files.put location formatted.canonical)
                later = rewriteFile session formatter progress.files later := by
            intro later hlater
            exact rewriteFile_congr
              (FileSystem.read_put_of_ne hold _ (hapart.1 later hlater location hlocate))
              (FileSystem.locate_put hold _ _ _)
          have hlater : rest.Pairwise
              ((progress.files.put location formatted.canonical).Apart
                session.surroundings.directory) := by
            rw [FileSystem.apart_put hold]
            exact hapart.2
          have hdone : ∀ entry ∈
              (Survey.of (rewriteFile session formatter progress.files) rest).done,
              progress.files.Apart session.surroundings.directory path entry.1 :=
            fun entry hentry => hapart.1 entry.1 (Survey.mem_of_mem_done hentry)
          have hrest := ih (Progress.noted
            { progress with files := progress.files.put location formatted.canonical }
            ((if formatted.isCanonical then [] else [path]).map ("Formatted " ++ ·.text))) hlater
          simp only [Progress.files_noted, Survey.of_congr hreads] at hrest
          simp only [forEach, Action.andThen, hstep, hrest, Survey.of_cons_ok hrewrite,
            Survey.changed_cons, List.map_append, replaced_cons hlocate hold hdone]
          simp [Progress.noted, Nat.add_assoc]

end

/-! Whole runs. -/

namespace Survey

/-- What checking the files comes to. -/
def verdict (survey : Survey) : Except CommandError Unit :=
  match survey.result with
  | .error error => .error error
  | .ok _ => if survey.changed = [] then .ok () else .error (.unformatted survey.changed.length)

end Survey

section

variable (session : Session) (settings : Settings) (paths : List Path) (files : FileSystem)

/-- What the selected files are and what they would become. -/
def surveyed (options : Options) : Survey :=
  .of (formatFile session { options } files)
    (selected settings session.surroundings.directory paths)

theorem runCheck_eq {survey : Survey} (hsurvey : surveyed session settings paths files
      { settings.options with terminalStyling := false } = survey) :
    runCheck session settings paths { files } =
      ⟨survey.verdict,
        { files
          messages := notices settings session.surroundings.directory paths ++
            survey.changed.map ("Would reformat " ++ ·.text) ++
            if survey.verdict.isOk then
              [toString (selected settings session.surroundings.directory paths).length ++
                " file(s) already formatted"]
            else []
          changed := survey.changed.length }⟩ := by
  rw [surveyed] at hsurvey
  simp only [runCheck, Action.andThen, reportSkipped_eq, forEach_checkFile, hsurvey]
  cases hresult : survey.result with
  | error error => simp [Survey.verdict, hresult, Progress.noted, Except.isOk, Except.toBool]
  | ok _ =>
      by_cases hchanged : survey.changed = []
      · simp [Survey.verdict, hresult, hchanged, summarizeCheck, say, Except.isOk, Except.toBool]
      · have hsome : 0 < survey.changed.length := List.length_pos_iff.mpr hchanged
        simp [Survey.verdict, hresult, hchanged, summarizeCheck, hsome, Progress.noted, Except.isOk,
          Except.toBool]

/-- The selected files that rewriting comes to. -/
def rewritten : Survey :=
  .of (rewriteFile session { options := settings.options } files)
    (selected settings session.surroundings.directory paths)

theorem runWrite_eq {survey : Survey}
    (hsurvey : rewritten session settings paths files = survey)
    (hplain : settings.options.terminalStyling = false) (hpaths : paths ≠ [])
    (hapart : (selected settings session.surroundings.directory paths).Pairwise
      (files.Apart session.surroundings.directory)) :
    runWrite session settings paths { files } =
      ⟨survey.result,
        { files := replaced files session.surroundings.directory survey.done
          messages := notices settings session.surroundings.directory paths ++
            survey.changed.map ("Formatted " ++ ·.text) ++
            if survey.result.isOk then
              [toString survey.changed.length ++ " of " ++
                toString (selected settings session.surroundings.directory paths).length ++
                " file(s) reformatted"]
            else []
          changed := survey.changed.length }⟩ := by
  rw [rewritten] at hsurvey
  have hrewritten := forEach_formatInPlace session { options := settings.options }
    { files, messages := notices settings session.surroundings.directory paths } hapart
  simp only [hsurvey] at hrewritten
  rw [runWrite]
  simp only [hplain, Bool.false_eq_true, if_false, List.isEmpty_iff, hpaths, Action.andThen,
    reportSkipped_eq, List.nil_append, hrewritten]
  cases hresult : survey.result with
  | error error => simp [Progress.noted, Except.isOk, Except.toBool]
  | ok _ => simp [summarizeWrite, say, Progress.noted, Except.isOk, Except.toBool]

end

end CanonicalMarkdown.Command
