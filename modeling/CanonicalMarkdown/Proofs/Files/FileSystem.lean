import CanonicalMarkdown.Files.FileSystem
import Mathlib

namespace CanonicalMarkdown.Files

theorem readText_ofText (text : String) : readText (Bytes.ofText text) = .ok text := by
  have hvalid : text.toUTF8.IsValidUTF8 := text.isValidUTF8
  rw [readText, Bytes.toText?, Bytes.ofText, Array.toArray_toList, String.fromUTF8?,
    dif_pos hvalid]
  rfl

theorem readText_eq_ok_iff {contents : Bytes} {text : String} :
    readText contents = .ok text ↔ contents = Bytes.ofText text := by
  constructor
  · intro hread
    rw [readText, Bytes.toText?, String.fromUTF8?] at hread
    split at hread
    · next decoded hdecoded =>
        obtain rfl : decoded = text := Except.ok.inj hread
        obtain ⟨hvalid, htext⟩ := Option.dite_none_right_eq_some.mp hdecoded
        obtain rfl := Option.some.inj htext
        rfl
    · cases hread
  · rintro rfl
    exact readText_ofText text

def Entry.isFile : Entry → Bool
  | .file _ => true
  | .directory => false

namespace FileSystem

variable {files : FileSystem} {directory : Location} {path : Path} {location : Location}

@[ext] theorem ext {other : FileSystem}
    (hentries : ∀ location, files.entry? location = other.entry? location) : files = other := by
  cases files
  cases other
  exact congrArg FileSystem.mk (funext hentries)

/-- An absolute path leads to the same place from everywhere. -/
theorem locate_absolute (files : FileSystem) {path : Path} (habsolute : path.isAbsolute = true)
    (directory other : Location) : files.locate directory path = files.locate other path := by
  rw [locate, locate, if_pos habsolute, if_pos habsolute]

theorem contents_eq_ok_iff {contents : Bytes} :
    files.contents location = .ok contents ↔ files.entry? location = some (.file contents) := by
  rw [FileSystem.contents]
  split <;> simp_all

theorem read_eq (files : FileSystem) (directory : Location) (path : Path) :
    files.read directory path =
      (files.locate directory path).bind fun location =>
        (files.contents location).bind readText := rfl

theorem read_eq_ok_iff {text : String} :
    files.read directory path = .ok text ↔
      ∃ location, files.locate directory path = .ok location ∧
        files.entry? location = some (.file (Bytes.ofText text)) := by
  rw [read_eq]
  cases hlocate : files.locate directory path with
  | error cause => simp [Except.bind]
  | ok location =>
      simp only [Except.bind, Except.ok.injEq, exists_eq_left', ← contents_eq_ok_iff]
      cases hcontents : files.contents location with
      | error cause => simp
      | ok contents => simp [readText_eq_ok_iff]

/-! Where paths lead depends on which files and directories there are, not on what files hold. -/

def Alike (files other : FileSystem) : Prop :=
  ∀ location, (other.entry? location).map Entry.isFile = (files.entry? location).map Entry.isFile

namespace Alike

variable {other : FileSystem} (halike : files.Alike other)
include halike

theorem enter_eq (location : Location) (piece : List Char) :
    other.enter location piece = files.enter location piece := by
  have hthere : ∀ location, (other.entry? location).isSome = (files.entry? location).isSome := by
    intro location
    simpa using congrArg Option.isSome (halike location)
  have hlocation := halike location
  unfold enter
  match hother : other.entry? location, hfiles : files.entry? location with
  | none, none => rfl
  | some (.file _), some (.file _) => rfl
  | some .directory, some .directory => simp only [hthere]
  | none, some _ | some _, none | some (.file _), some .directory
  | some .directory, some (.file _) => simp [hother, hfiles, Entry.isFile] at hlocation

theorem enterAll_eq (location : Location) (pieces : List (List Char)) :
    other.enterAll location pieces = files.enterAll location pieces := by
  induction pieces generalizing location with
  | nil => rfl
  | cons piece rest ih => simp only [enterAll, halike.enter_eq, ih]

theorem locate_eq (directory : Location) (path : Path) :
    other.locate directory path = files.locate directory path := by
  simp only [locate, halike.enterAll_eq]

end Alike

/-! Putting a file in the place of a file. -/

section

variable {old : Bytes} (hold : files.entry? location = some (.file old)) (contents : Bytes)

theorem entry?_put_self (files : FileSystem) (location : Location) (contents : Bytes) :
    FileSystem.entry? (files.put location contents) location = some (.file contents) := if_pos rfl

theorem entry?_put_of_ne (files : FileSystem) {location other : Location}
    (hother : other ≠ location) (contents : Bytes) :
    FileSystem.entry? (files.put location contents) other = files.entry? other := if_neg hother

include hold

theorem put_self : files.put location old = files := by
  ext other : 1
  by_cases hother : other = location
  · rw [hother, entry?_put_self, hold]
  · rw [entry?_put_of_ne files hother]

theorem alike_put : files.Alike (files.put location contents) := by
  intro other
  by_cases hother : other = location
  · rw [hother, entry?_put_self, hold]
    rfl
  · rw [entry?_put_of_ne files hother]

theorem locate_put (directory : Location) (path : Path) :
    (files.put location contents).locate directory path = files.locate directory path :=
  (alike_put hold contents).locate_eq directory path

theorem read_put_of_ne (hapart : files.locate directory path ≠ .ok location) :
    (files.put location contents).read directory path = files.read directory path := by
  rw [read_eq, read_eq, locate_put hold]
  cases hlocate : files.locate directory path with
  | error cause => rfl
  | ok reached =>
      have hreached : reached ≠ location := fun heq => hapart (heq ▸ hlocate)
      simp only [Except.bind, FileSystem.contents, entry?_put_of_ne files hreached]

section

variable {obstacle? : Location → Option FileError}
  (hlocate : files.locate directory path = .ok location)
include hlocate

theorem write_eq (obstacle? : Location → Option FileError) :
    files.write obstacle? directory path contents =
      match obstacle? location with
      | some cause => .error cause
      | none => .ok (files.put location contents) := by
  have hcontents := contents_eq_ok_iff.mpr hold
  rw [write, hlocate]
  change (files.contents location >>= _) = _
  rw [hcontents]
  rfl

theorem write_eq_put (hfree : obstacle? location = none) :
    files.write obstacle? directory path contents = .ok (files.put location contents) := by
  rw [write_eq hold contents hlocate, hfree]

theorem write_eq_error {cause : FileError} (hobstacle : obstacle? location = some cause) :
    files.write obstacle? directory path contents = .error cause := by
  rw [write_eq hold contents hlocate, hobstacle]

end

end

/-- The paths do not lead to the same place. -/
def Apart (files : FileSystem) (directory : Location) (first second : Path) : Prop :=
  ∀ location, files.locate directory first = .ok location →
    files.locate directory second ≠ .ok location

instance (files : FileSystem) (directory : Location) (first second : Path) :
    Decidable (files.Apart directory first second) :=
  match hfirst : files.locate directory first with
  | .error _ => isTrue (by simp [Apart, hfirst])
  | .ok location =>
      decidable_of_iff (files.locate directory second ≠ .ok location) (by simp [Apart, hfirst])

theorem apart_put {old : Bytes} (hold : files.entry? location = some (.file old))
    (contents : Bytes) (directory : Location) :
    (files.put location contents).Apart directory = files.Apart directory := by
  funext first second
  simp only [Apart, locate_put hold]

theorem Apart.symm {first second : Path} (hapart : files.Apart directory first second) :
    files.Apart directory second first :=
  fun location hsecond hfirst => hapart location hfirst hsecond

end FileSystem

end CanonicalMarkdown.Files
