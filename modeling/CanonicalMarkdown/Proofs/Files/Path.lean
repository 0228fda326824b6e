import CanonicalMarkdown.Proofs.Files.FileSystem
import Mathlib

namespace CanonicalMarkdown

namespace Path

variable {path base : Path}

/-! Absolute paths. -/

theorem isAbsolute_iff : path.isAbsolute = true ↔ ∃ rest, path.chars = '/' :: rest := by
  cases hchars : path.chars with
  | nil => simp [isAbsolute, hchars]
  | cons first rest => simp [isAbsolute, hchars]

theorem isEmpty_iff : path.isEmpty = true ↔ path.chars = [] := by
  simp [isEmpty, chars]

theorem isEmpty_iff_eq : path.isEmpty = true ↔ path = ⟨""⟩ := by
  cases path
  simp [isEmpty]

theorem isAbsolute_join (base other : Path) :
    (base.join other).isAbsolute = (base.isAbsolute || other.isAbsolute) := by
  cases hother : other.isAbsolute with
  | true => simp [join, hother]
  | false =>
      have hhead : other.chars.head? ≠ some '/' := by simpa [isAbsolute] using hother
      rw [join, hother]
      simp only [Bool.false_eq_true, if_false, Bool.or_false]
      split <;> cases hbase : base.chars <;> simp_all [isAbsolute, chars, isEmpty]

theorem isEmpty_join {base other : Path} :
    (base.join other).isEmpty = true ↔ base.isEmpty = true ∧ other.isEmpty = true := by
  unfold join
  split
  · next hother =>
      obtain ⟨rest, hchars⟩ := isAbsolute_iff.mp hother
      simp [isEmpty_iff, hchars]
  · split <;> simp_all [isEmpty_iff, chars]

theorem absolute_of_isAbsolute (habsolute : path.isAbsolute = true) (directory : Location) :
    path.absolute directory = path := if_pos habsolute

theorem isAbsolute_absolute (directory : Location) (path : Path) :
    (path.absolute directory).isAbsolute = true := by
  have hdirectory : directory.path.isAbsolute = true := by
    simp [Location.path, isAbsolute, chars]
  rw [Path.absolute, isAbsolute_join, hdirectory, Bool.true_or]

/-! Only the empty path and absolute ones hold absolute paths. -/

theorem component?_ne_root (piece : List Char) : component? piece ≠ some .root := by
  unfold component?
  split <;> simp

theorem component?_isSome {first : Char} {rest : List Char} (hpoint : first :: rest ≠ ['.']) :
    (component? (first :: rest)).isSome := by
  unfold component?
  split <;> simp_all

theorem exists_split_cons {first : Char} (hfirst : first ≠ '/') (rest : List Char) :
    ∃ piece pieces, split (first :: rest) = (first :: piece) :: pieces := by
  rw [split, if_neg hfirst]
  split
  · exact ⟨[], [], rfl⟩
  · next piece pieces _ => exact ⟨piece, pieces, rfl⟩

theorem split_ne_nil (chars : List Char) : split chars ≠ [] := by
  fun_cases split chars <;> simp

theorem components_of_isAbsolute (habsolute : path.isAbsolute = true) :
    path.components = .root :: path.pieces.filterMap component? := if_pos habsolute

theorem head?_components_ne_root (hrelative : path.isAbsolute = false) :
    path.components.head? ≠ some .root := by
  have hnot : ∀ pieces : List (List Char), Component.root ∉ pieces.filterMap component? := by
    intro pieces hroot
    obtain ⟨piece, -, hpiece⟩ := List.mem_filterMap.mp hroot
    exact component?_ne_root piece hpiece
  rw [components, hrelative]
  simp only [Bool.false_eq_true, if_false]
  split
  · simp
  · exact fun hhead => hnot _ (List.mem_of_mem_head? hhead)

theorem components_eq_nil_iff (hrelative : path.isAbsolute = false) :
    path.components = [] ↔ path.isEmpty = true := by
  rw [components, hrelative, pieces, isEmpty_iff]
  cases hchars : path.chars with
  | nil => simp [split, component?]
  | cons first rest =>
      have hfirst : first ≠ '/' := by
        rintro rfl
        simp [isAbsolute, hchars] at hrelative
      obtain ⟨piece, pieces, hsplit⟩ := exists_split_cons hfirst rest
      rw [hsplit]
      simp only [Bool.false_eq_true, if_false, reduceCtorEq, iff_false]
      split
      · simp
      · next hpoint =>
          have hne : first :: piece ≠ ['.'] := fun heq => hpoint pieces (by rw [heq])
          obtain ⟨component, hcomponent⟩ := Option.isSome_iff_exists.mp (component?_isSome hne)
          simp [hcomponent]

theorem startsWith_of_relative (hpath : path.isAbsolute = true)
    (hbase : base.isAbsolute = false) : path.startsWith base = base.isEmpty := by
  have hroot := head?_components_ne_root hbase
  have hempty := components_eq_nil_iff hbase
  rw [startsWith, components_of_isAbsolute hpath]
  cases hcomponents : base.components with
  | nil =>
      rw [hempty.mp hcomponents]
      rfl
  | cons first rest =>
      rw [hcomponents] at hroot hempty
      have hfirst : first ≠ .root := by simpa using hroot
      have hnonempty : base.isEmpty = false := by simpa using hempty
      simp [List.isPrefixOf, hfirst, hnonempty]

/-! The directory above a path. -/

theorem dropIdle_suffix (chars : List Char) : dropIdle chars <:+ chars := by
  fun_induction dropIdle chars with
  | case1 rest ih => exact ih.trans (List.suffix_cons _ rest)
  | case2 => exact List.nil_suffix
  | case3 rest ih => exact (ih.trans (List.suffix_cons _ rest)).trans (List.suffix_cons _ _)
  | case4 => exact List.suffix_rfl

theorem splitLead_append (chars : List Char) :
    (splitLead chars).1 ++ (splitLead chars).2 = chars := by
  unfold splitLead
  split <;> rfl

theorem splitLead_lead (chars : List Char) :
    (splitLead chars).1 = ['/'] ∨ (splitLead chars).1 = ['.'] ∨ (splitLead chars).1 = [] := by
  unfold splitLead
  split <;> simp

theorem splitLead_of_isAbsolute (habsolute : path.isAbsolute = true) :
    (splitLead path.chars).1 = ['/'] := by
  obtain ⟨rest, hchars⟩ := isAbsolute_iff.mp habsolute
  rw [hchars, splitLead]

/-- A directory is a leading part of the paths in it, and of absolute ones it keeps the slash. -/
theorem chars_parent? {parent : Path} (hparent : path.parent? = some parent) :
    parent.chars <+: path.chars ∧ (path.isAbsolute = true → parent.chars ≠ []) := by
  have hchars := splitLead_append path.chars
  have hlead : path.isAbsolute = true → (splitLead path.chars).1 = ['/'] :=
    splitLead_of_isAbsolute
  rw [parent?] at hparent
  generalize splitLead path.chars = halves at hparent hchars hlead
  obtain ⟨lead, body⟩ := halves
  dsimp only at hparent hchars hlead
  split at hparent
  · split at hparent
    · next hpoint =>
        obtain rfl := Option.some.inj hparent
        refine ⟨List.nil_prefix, fun habsolute => ?_⟩
        rw [hlead habsolute] at hpoint
        exact absurd hpoint (by decide)
    · cases hparent
  · obtain rfl := Option.some.inj hparent
    have hsuffix : dropIdle ((dropIdle body.reverse).dropWhile (· != '/')) <:+ body.reverse :=
      ((dropIdle_suffix _).trans (List.dropWhile_suffix _)).trans (dropIdle_suffix _)
    have hbody := List.reverse_prefix.mpr hsuffix
    rw [List.reverse_reverse] at hbody
    simp only [chars, String.toList_ofList] at hchars ⊢
    refine ⟨?_, fun habsolute => ?_⟩
    · rw [← hchars]
      exact (List.prefix_append_right_inj lead).mpr hbody
    · simp [hlead habsolute]

theorem isAbsolute_parent? {parent : Path} (hparent : path.parent? = some parent) :
    parent.isAbsolute = path.isAbsolute := by
  obtain ⟨⟨rest, hrest⟩, hkeeps⟩ := chars_parent? hparent
  cases hchars : parent.chars with
  | nil =>
      cases habsolute : path.isAbsolute with
      | true => exact absurd hchars (hkeeps habsolute)
      | false => rw [isAbsolute, hchars]; rfl
  | cons first later => simp [isAbsolute, ← hrest, hchars]

/-- Slashes and lone points, from whichever end they are read. -/
def Idle (chars : List Char) : Prop :=
  (∀ c ∈ chars, c = '/' ∨ c = '.') ∧ ¬ ['.', '.'] <:+: chars

theorem Idle.slash {rest : List Char} (hidle : Idle rest) : Idle ('/' :: rest) :=
  ⟨by simpa using hidle.1, by simp [List.infix_cons_iff, hidle.2]⟩

theorem idle_of_dropIdle {chars : List Char} (hdropped : dropIdle chars = []) : Idle chars := by
  fun_induction dropIdle chars with
  | case1 rest ih => exact (ih hdropped).slash
  | case2 => simp [Idle, List.infix_cons_iff]
  | case3 rest ih =>
      obtain ⟨hchars, hpoints⟩ := ih hdropped
      exact ⟨by simpa using hchars, by simp [List.infix_cons_iff, hpoints]⟩
  | case4 chars =>
      rw [hdropped]
      simp [Idle]

theorem Idle.reverse {chars : List Char} (hidle : Idle chars) : Idle chars.reverse := by
  refine ⟨by simpa using hidle.1, fun hpoints => hidle.2 ?_⟩
  simpa using List.reverse_infix.mpr hpoints

theorem Idle.of_cons {first : Char} {rest : List Char} (hidle : Idle (first :: rest)) : Idle rest :=
  ⟨fun c hc => hidle.1 c (List.mem_cons_of_mem first hc),
    fun hpoints => hidle.2 (List.infix_cons hpoints)⟩

/-- No point follows a point. -/
theorem Idle.head?_split {rest : List Char} (hidle : Idle ('.' :: rest)) :
    (split rest).head? = some [] := by
  cases rest with
  | nil => rfl
  | cons next later =>
      rcases hidle.1 next (by simp) with rfl | rfl
      · rw [split, if_pos rfl]
        rfl
      · exact absurd ⟨[], later, rfl⟩ hidle.2

theorem Idle.of_mem_split {chars piece : List Char} (hidle : Idle chars)
    (hpiece : piece ∈ split chars) : piece = [] ∨ piece = ['.'] := by
  fun_induction split chars generalizing piece with
  | case1 => exact .inl (by simpa using hpiece)
  | case2 rest ih =>
      rcases List.mem_cons.mp hpiece with rfl | hpiece
      · exact .inl rfl
      · exact ih hidle.of_cons hpiece
  | case3 c rest hc hsplit ih =>
      obtain rfl := (hidle.1 c (by simp)).resolve_left hc
      exact .inr (by simpa using hpiece)
  | case4 c rest hc first pieces hsplit ih =>
      obtain rfl := (hidle.1 c (by simp)).resolve_left hc
      rcases List.mem_cons.mp hpiece with rfl | hpiece
      · have hfirst : first = [] := by simpa [hsplit] using hidle.head?_split
        exact .inr (by rw [hfirst])
      · exact ih hidle.of_cons (hsplit ▸ List.mem_cons_of_mem first hpiece)

/-- A path that is in no directory consists of slashes and points. -/
theorem of_parent?_eq_none (hparent : path.parent? = none) :
    ∀ piece ∈ path.pieces, piece = [] ∨ piece = ['.'] := by
  have hchars := splitLead_append path.chars
  have hlead := splitLead_lead path.chars
  rw [parent?] at hparent
  generalize splitLead path.chars = halves at hparent hchars hlead
  obtain ⟨lead, body⟩ := halves
  dsimp only at hparent hchars hlead
  split at hparent
  · next hdropped =>
      split at hparent
      · cases hparent
      · next hpoint =>
          have hbody : Idle body := by simpa using (idle_of_dropIdle hdropped).reverse
          have hidle : Idle path.chars := by
            rw [← hchars]
            rcases hlead with rfl | rfl | rfl
            · exact hbody.slash
            · exact absurd rfl hpoint
            · exact hbody
          exact fun piece hpiece => hidle.of_mem_split hpiece
  · cases hparent

end Path

namespace Files.FileSystem

variable {files : FileSystem}

theorem enter_idle {location reached : Location} {piece : List Char}
    (hidle : piece = [] ∨ piece = ['.']) (henter : files.enter location piece = .ok reached) :
    reached = location ∧ files.entry? location = some .directory := by
  unfold enter at henter
  split at henter
  · cases henter
  · cases henter
  · next hentry =>
      rcases hidle with rfl | rfl <;> exact ⟨(Except.ok.inj henter).symm, hentry⟩

theorem enterAll_idle {location reached : Location} {pieces : List (List Char)}
    (hidle : ∀ piece ∈ pieces, piece = [] ∨ piece = ['.'])
    (hreached : files.enterAll location pieces = .ok reached) (hpieces : pieces ≠ []) :
    reached = location ∧ files.entry? location = some .directory := by
  induction pieces with
  | nil => exact absurd rfl hpieces
  | cons piece rest ih =>
      cases henter : files.enter location piece with
      | error cause =>
          rw [enterAll, henter] at hreached
          cases hreached
      | ok next =>
          obtain ⟨rfl, hentry⟩ := enter_idle (hidle piece (by simp)) henter
          rw [enterAll, henter] at hreached
          cases rest with
          | nil => exact ⟨(Except.ok.inj hreached).symm, hentry⟩
          | cons second later =>
              exact ih (fun piece hpiece => hidle piece (by simp [hpiece])) hreached (by simp)

/-- A file is in some directory. -/
theorem exists_parent?_of_read {directory : Location} {path : Path} {text : String}
    (hread : files.read directory path = .ok text) : ∃ parent, path.parent? = some parent := by
  by_contra hnone
  obtain ⟨location, hlocate, hentry⟩ := read_eq_ok_iff.mp hread
  have hparent : path.parent? = none := by simpa [Option.eq_none_iff_forall_ne_some] using hnone
  rw [locate] at hlocate
  split at hlocate
  · cases hlocate
  · split at hlocate
    · cases hlocate
    · obtain ⟨rfl, hdirectory⟩ := enterAll_idle (Path.of_parent?_eq_none hparent) hlocate
        (Path.split_ne_nil _)
      rw [hdirectory] at hentry
      cases hentry

end Files.FileSystem

end CanonicalMarkdown
