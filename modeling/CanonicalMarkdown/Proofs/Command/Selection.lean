import CanonicalMarkdown.Command.Run
import CanonicalMarkdown.Proofs.Files.Path
import CanonicalMarkdown.Proofs.Settings.Resolution
import Mathlib

namespace CanonicalMarkdown

open Files

namespace Settings

/-! The paths that are ignored, one for each entry of the settings file. -/

theorem mem_ignore_iff {environment : Environment} {home : Home environment} {directory : Path}
    {entries : List String} {ignore : List Path}
    (htargets : List.Forall₂ (Targets home directory) entries ignore) {target : Path} :
    target ∈ ignore ↔ ∃ entry ∈ entries, Targets home directory entry target := by
  induction htargets with
  | nil => simp
  | @cons entry first entries ignore hfirst _ ih =>
      have hunique : Targets home directory entry target ↔ target = first := by
        obtain ⟨expanded, hexpanded, rfl⟩ := targets_iff.mp hfirst
        simp [targets_iff, hexpanded]
      simp [ih, hunique]

section

variable {surroundings : Surroundings} {file : Path}

theorem isAbsolute_fileIn (location : Location) : (fileIn location).isAbsolute = true :=
  Path.isAbsolute_absolute location fileName

theorem isAbsolute_directoryOf {stated : Stated} (htells : Tells surroundings file stated) :
    (directoryOf file).isAbsolute = file.isAbsolute := by
  obtain ⟨content, hread, -⟩ := htells
  obtain ⟨parent, hparent⟩ := FileSystem.exists_parent?_of_read hread
  rw [directoryOf, hparent]
  exact Path.isAbsolute_parent? hparent

variable {named : Option Path} {settings : Settings}

/-- Settings are from the file that is named, from one that is found, which is absolute, or from
none. -/
theorem Loads.source (hloads : Loads surroundings named (.ok settings)) :
    (named = none ∧ settings.file = none ∧ settings.ignore = []) ∨
    ∃ file stated, settings.file = some file ∧ Tells surroundings file stated ∧
      Ignores surroundings file stated settings.ignore ∧
      (named = some file ∨ named = none ∧ file.isAbsolute = true) := by
  cases hloads with
  | @named path _ _ hreads =>
      cases hreads with
      | settled htells hignores _ =>
          exact .inr ⟨path, _, rfl, htells, hignores, .inl rfl⟩
  | @nearest location _ _ hreads =>
      cases hreads with
      | settled htells hignores _ =>
          exact .inr ⟨_, _, rfl, htells, hignores, .inr ⟨rfl, isAbsolute_fileIn location⟩⟩
  | usual _ => exact .inl ⟨rfl, rfl, rfl⟩

end

end Settings

namespace Command

open Settings

theorem select_eq_ignored_iff {settings : Settings} {directory : Location} {path : Path} :
    select settings directory path = .ignored ↔
      ∃ target ∈ settings.ignore, (path.absolute directory).startsWith target = true := by
  have hignored : settings.isIgnored (path.absolute directory) = true ↔
      ∃ target ∈ settings.ignore, (path.absolute directory).startsWith target = true :=
    List.any_eq_true
  rw [← hignored, select]
  split
  · simp_all
  · split <;> simp_all

section

variable {surroundings : Surroundings} {file : Path} {stated : Stated} {settings : Settings}

/-- The path is, or lies under, what the entry stands for in the directory of the settings file. -/
def Covers (surroundings : Surroundings) (file : Path) (entry : String) (path : Path) : Prop :=
  ∃ target,
    Targets surroundings.home (directoryOf (file.absolute surroundings.directory)) entry target ∧
    (path.absolute surroundings.directory).startsWith target = true

theorem ignored_of_absolute_file (habsolute : file.isAbsolute = true)
    (hignores : Ignores surroundings file stated settings.ignore) (path : Path) :
    select settings surroundings.directory path = .ignored ↔
      ∃ entry ∈ stated.ignore.getD [], Covers surroundings file entry path := by
  rw [select_eq_ignored_iff]
  simp only [mem_ignore_iff hignores, Covers, Path.absolute_of_isAbsolute habsolute]
  constructor
  · rintro ⟨target, ⟨entry, hentry, htarget⟩, hstarts⟩
    exact ⟨entry, hentry, target, htarget, hstarts⟩
  · rintro ⟨entry, hentry, target, htarget, hstarts⟩
    exact ⟨target, ⟨entry, hentry, htarget⟩, hstarts⟩

/-- From a relative directory an entry covers a path only if it is absolute itself. -/
theorem startsWith_join_iff {directory path : Path} (hdirectory : directory.isAbsolute = false)
    (hpath : path.isAbsolute = true) (other : Path) :
    path.startsWith (directory.join other) = true ↔
      other.isAbsolute = true ∧ path.startsWith other = true ∨
        other = ⟨""⟩ ∧ directory = ⟨""⟩ := by
  rw [← Path.isEmpty_iff_eq, ← Path.isEmpty_iff_eq]
  cases hother : other.isAbsolute with
  | true =>
      have hnonempty : other.isEmpty = false := by
        obtain ⟨rest, hchars⟩ := Path.isAbsolute_iff.mp hother
        rw [Bool.eq_false_iff, ne_eq, Path.isEmpty_iff, hchars]
        exact List.cons_ne_nil _ rest
      simp [Path.join, hother, hnonempty]
  | false =>
      have hjoin : (directory.join other).isAbsolute = false := by
        rw [Path.isAbsolute_join, hdirectory, hother]
        rfl
      rw [Path.startsWith_of_relative hpath hjoin, Path.isEmpty_join]
      simp [and_comm]

theorem covers_iff_of_isAbsolute {entry expanded : String} {path : Path}
    (hexpanded : expandEntry surroundings.home entry = .ok expanded)
    (habsolute : Path.isAbsolute ⟨expanded⟩ = true) :
    Covers surroundings file entry path ↔
      (path.absolute surroundings.directory).startsWith ⟨expanded⟩ = true := by
  simp [Covers, targets_iff, hexpanded, Path.join, habsolute]

theorem ignored_of_relative_file (htells : Tells surroundings file stated)
    (hrelative : file.isAbsolute = false)
    (hignores : Ignores surroundings file stated settings.ignore) (path : Path) :
    select settings surroundings.directory path = .ignored ↔
      ∃ entry ∈ stated.ignore.getD [], ∃ expanded,
        expandEntry surroundings.home entry = .ok expanded ∧
          (Path.isAbsolute ⟨expanded⟩ = true ∧ Covers surroundings file entry path ∨
            expanded = "" ∧ directoryOf file = ⟨""⟩) := by
  have hdirectory : (directoryOf file).isAbsolute = false :=
    (isAbsolute_directoryOf htells).trans hrelative
  have hcovered : ∀ {entry expanded}, expandEntry surroundings.home entry = .ok expanded →
      ((path.absolute surroundings.directory).startsWith ((directoryOf file).join ⟨expanded⟩) =
          true ↔
        Path.isAbsolute ⟨expanded⟩ = true ∧ Covers surroundings file entry path ∨
          expanded = "" ∧ directoryOf file = ⟨""⟩) := by
    intro entry expanded hexpanded
    rw [startsWith_join_iff hdirectory (Path.isAbsolute_absolute _ path), Path.mk.injEq]
    refine or_congr_left (and_congr_right fun habsolute => ?_)
    exact (covers_iff_of_isAbsolute hexpanded habsolute).symm
  rw [select_eq_ignored_iff]
  simp only [mem_ignore_iff hignores]
  constructor
  · rintro ⟨_, ⟨entry, hentry, htarget⟩, hstarts⟩
    obtain ⟨expanded, hexpanded, rfl⟩ := targets_iff.mp htarget
    exact ⟨entry, hentry, expanded, hexpanded, (hcovered hexpanded).mp hstarts⟩
  · rintro ⟨entry, hentry, expanded, hexpanded, hcovers⟩
    exact ⟨_, ⟨entry, hentry, targets_iff.mpr ⟨expanded, hexpanded, rfl⟩⟩,
      (hcovered hexpanded).mpr hcovers⟩

/-- Where the settings file is found, or named by an absolute path, its entries cover what they
stand for in its directory. Where it is named by a relative path, only entries that are absolute
do. -/
theorem ignored_as_file_is_named {named : Option Path} {preferences : Preferences}
    (hload : load surroundings named preferences = .ok settings)
    (hfile : settings.file = some file) :
    (named = some file ∨ named = none ∧ file.isAbsolute = true) ∧
      ∃ stated, Tells surroundings file stated ∧
        (file.isAbsolute = true →
          (∀ target ∈ settings.ignore, target.isAbsolute = true) ∧
            ∀ path, select settings surroundings.directory path = .ignored ↔
              ∃ entry ∈ stated.ignore.getD [], Covers surroundings file entry path) ∧
        (file.isAbsolute = false →
          (∀ entry ∈ stated.ignore.getD [], ∀ expanded,
            expandEntry surroundings.home entry = .ok expanded →
              (directoryOf file).join ⟨expanded⟩ ∈ settings.ignore ∧
                ((directoryOf file).join ⟨expanded⟩).isAbsolute =
                  Path.isAbsolute ⟨expanded⟩) ∧
            ∀ path, select settings surroundings.directory path = .ignored ↔
              ∃ entry ∈ stated.ignore.getD [], ∃ expanded,
                expandEntry surroundings.home entry = .ok expanded ∧
                  (Path.isAbsolute ⟨expanded⟩ = true ∧ Covers surroundings file entry path ∨
                    expanded = "" ∧ directoryOf file = ⟨""⟩)) := by
  obtain ⟨loaded, hloads, rfl⟩ := load_eq_ok hload
  obtain ⟨-, hnone, -⟩ | ⟨own, stated, hown, htells, hignores, hnamed⟩ := hloads.source
  · exact absurd (hfile.symm.trans hnone) (by simp)
  · obtain rfl : own = file := Option.some.inj (hown.symm.trans hfile)
    have hdirectory := isAbsolute_directoryOf htells
    refine ⟨hnamed, stated, htells, fun habsolute => ⟨?_, ?_⟩, fun hrelative => ⟨?_, ?_⟩⟩
    · intro target htarget
      obtain ⟨entry, -, expanded, -, rfl⟩ := (mem_ignore_iff hignores).mp htarget
      rw [Path.isAbsolute_join, hdirectory, habsolute, Bool.true_or]
    · exact ignored_of_absolute_file habsolute hignores
    · intro entry hentry expanded hexpanded
      have htarget : Targets surroundings.home (directoryOf own) entry
          ((directoryOf own).join ⟨expanded⟩) := targets_iff.mpr ⟨expanded, hexpanded, rfl⟩
      refine ⟨(mem_ignore_iff hignores).mpr ⟨entry, hentry, htarget⟩, ?_⟩
      rw [Path.isAbsolute_join, hdirectory, hrelative, Bool.false_or]
    · exact ignored_of_relative_file htells hrelative hignores

end

/-- A settings file that leaves the directory beside it alone. -/
def yard : Surroundings where
  files.entry?
    | [] | ["srv"] | ["srv", "vendor"] => some .directory
    | ["srv", "mdfmt.toml"] => some (.file (Bytes.ofText "[files]\nignore = ['vendor']\n"))
    | ["srv", "vendor", "v.md"] => some (.file (Bytes.ofText "x"))
    | _ => none
  directory := ["srv"]
  environment := ⟨fun _ => none⟩

def yardFound : Settings where
  ignore := [⟨"/srv/vendor"⟩]
  file := some ⟨"/srv/mdfmt.toml"⟩

def yardNamed : Settings where
  ignore := [⟨"vendor"⟩]
  file := some ⟨"mdfmt.toml"⟩

theorem yard_ignored_when_found :
    load yard none {} = .ok yardFound ∧
      (∀ target ∈ yardFound.ignore, target.isAbsolute = true) ∧
      ∃ stated, Tells yard ⟨"/srv/mdfmt.toml"⟩ stated ∧
        ∃ entry ∈ stated.ignore.getD [],
          Covers yard ⟨"/srv/mdfmt.toml"⟩ entry ⟨"vendor/v.md"⟩ := by
  have hload : load yard none {} = .ok yardFound := by decide +kernel
  have hignored : select yardFound yard.directory ⟨"vendor/v.md"⟩ = .ignored := by decide +kernel
  obtain ⟨-, stated, htells, hfound, -⟩ := ignored_as_file_is_named hload rfl
  obtain ⟨habsolute, hcovered⟩ := hfound (by decide)
  exact ⟨hload, habsolute, stated, htells, (hcovered _).mp hignored⟩

/-- Named by a relative path the same file covers nothing. -/
theorem yard_selected_when_named :
    load yard (some ⟨"mdfmt.toml"⟩) {} = .ok yardNamed ∧
      (∃ target ∈ yardNamed.ignore, target.isAbsolute = false) ∧
      (∃ stated, Tells yard ⟨"mdfmt.toml"⟩ stated ∧ "vendor" ∈ stated.ignore.getD []) ∧
      Covers yard ⟨"mdfmt.toml"⟩ "vendor" ⟨"vendor/v.md"⟩ ∧
      select yardNamed yard.directory ⟨"vendor/v.md"⟩ = .selected := by
  have hread : yard.read ⟨"mdfmt.toml"⟩ = .ok "[files]\nignore = ['vendor']\n" := by
    decide +kernel
  have hparse : parse "[files]\nignore = ['vendor']\n" =
      .ok { options := {}, extensions := none, ignore := some ["vendor"] } := by decide +kernel
  have htarget : Targets yard.home
      (directoryOf (Path.absolute yard.directory ⟨"mdfmt.toml"⟩)) "vendor" ⟨"/srv/vendor"⟩ :=
    targets_iff.mpr ⟨"vendor", by cbv, by decide +kernel⟩
  exact ⟨by decide +kernel, ⟨⟨"vendor"⟩, by decide, by decide⟩, ⟨_, ⟨_, hread, hparse⟩, by decide⟩,
    ⟨_, htarget, by decide +kernel⟩, by decide +kernel⟩

end Command

end CanonicalMarkdown
