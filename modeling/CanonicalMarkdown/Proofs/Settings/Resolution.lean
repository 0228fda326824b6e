import CanonicalMarkdown.Proofs.Files.FileSystem
import CanonicalMarkdown.Proofs.Settings.Entry
import CanonicalMarkdown.Settings.Load
import Mathlib

namespace CanonicalMarkdown

open Files Settings

/-! The directories above a location are its leading parts, the longest being the nearest. -/

namespace Location

theorem upwards_concat (location : Location) (name : String) :
    upwards (location ++ [name]) = (location ++ [name]) :: upwards location := by
  have hwhole : (location ++ [name]).take (location.length + 1) = location ++ [name] :=
    List.take_of_length_le (by simp)
  have hothers : ∀ count ∈ (List.range (location.length + 1)).reverse,
      (location ++ [name]).take count = location.take count := by
    intro count hcount
    rw [List.mem_reverse, List.mem_range] at hcount
    exact List.take_append_of_le_length (Nat.le_of_lt_succ hcount)
  rw [upwards, upwards, List.length_append, List.length_singleton, List.range_succ,
    List.reverse_concat, List.map_cons, hwhole, List.map_congr_left hothers]

theorem mem_upwards {location directory : Location} :
    location ∈ upwards directory ↔ location <+: directory := by
  induction directory using List.reverseRecOn with
  | nil => simp [upwards]
  | append_singleton directory name ih =>
      rw [upwards_concat, List.mem_cons, ih, List.prefix_concat_iff]

/-- Of the locations around the directory that have what is looked for, this is the innermost. -/
structure Nearest (has : Location → Bool) (directory location : Location) : Prop where
  around : location <+: directory
  found : has location = true
  nearer : ∀ other, other <+: directory → location.length < other.length → has other = false

theorem nearest_self {has : Location → Bool} {directory : Location}
    (hfound : has directory = true) : Nearest has directory directory where
  around := List.prefix_rfl
  found := hfound
  nearer _ hother hlength := absurd hother.length_le (Nat.not_le_of_lt hlength)

theorem Nearest.concat {has : Location → Bool} {directory location : Location} {name : String}
    (hnearest : Nearest has directory location) (hself : has (directory ++ [name]) = false) :
    Nearest has (directory ++ [name]) location where
  around := hnearest.around.trans (List.prefix_append _ _)
  found := hnearest.found
  nearer other hother hlength := by
    rcases List.prefix_concat_iff.mp hother with rfl | hother
    · exact hself
    · exact hnearest.nearer other hother hlength

theorem nearest_or (has : Location → Bool) (directory : Location) :
    (∃ location, Nearest has directory location) ∨
      ∀ location, location <+: directory → has location = false := by
  -- The search goes outwards, so the innermost name is the one that comes off.
  induction directory using List.reverseRecOn with
  | nil =>
      cases hself : has [] with
      | true => exact .inl ⟨_, nearest_self hself⟩
      | false =>
          refine .inr fun location hlocation => ?_
          rwa [List.prefix_nil.mp hlocation]
  | append_singleton directory name ih =>
      cases hself : has (directory ++ [name]) with
      | true => exact .inl ⟨_, nearest_self hself⟩
      | false =>
          rcases ih with ⟨location, hnearest⟩ | hnowhere
          · exact .inl ⟨location, hnearest.concat hself⟩
          · refine .inr fun location hlocation => ?_
            rcases List.prefix_concat_iff.mp hlocation with rfl | hlocation
            · exact hself
            · exact hnowhere location hlocation

theorem Nearest.find?_upwards {has : Location → Bool} {directory location : Location}
    (hnearest : Nearest has directory location) :
    (upwards directory).find? has = some location := by
  obtain ⟨hlocation, hfound, hnearer⟩ := hnearest
  induction directory using List.reverseRecOn with
  | nil =>
      obtain rfl := List.prefix_nil.mp hlocation
      simp [upwards, hfound]
  | append_singleton directory name ih =>
      rw [upwards_concat]
      rcases List.prefix_concat_iff.mp hlocation with rfl | hlocation
      · exact List.find?_cons_of_pos hfound
      · have hlength := hlocation.length_le
        have hself := hnearer _ List.prefix_rfl (by simp; omega)
        rw [List.find?_cons_of_neg (by simp [hself])]
        exact ih hlocation fun other hother =>
          hnearer other (hother.trans (List.prefix_append _ _))

end Location

namespace Settings

/-! A text that is no settings file is refused as such and not otherwise. -/

/-- The error is about what the text of the file says. -/
def SettingsError.concernsText : SettingsError → Bool
  | .malformed _ | .wrongType _ => true
  | _ => false

def BlamesText {α : Type} (reading : Except SettingsError α) : Prop :=
  ∀ error, reading = .error error → error.concernsText = true

theorem blamesText_ok {α : Type} (value : α) : BlamesText (.ok value) := by
  rintro error ⟨⟩

theorem blamesText_wrongType {α : Type} (field : String) :
    BlamesText (.error (.wrongType field) : Except SettingsError α) := by
  rintro error ⟨⟩
  rfl

theorem BlamesText.bind {α β : Type} {first : Except SettingsError α}
    {next : α → Except SettingsError β} (hfirst : BlamesText first)
    (hnext : ∀ value, BlamesText (next value)) : BlamesText (first >>= next) := by
  cases first with
  | error cause =>
      rintro error ⟨⟩
      exact hfirst _ rfl
  | ok value => exact hnext value

namespace Stated

theorem blamesText_field (group name : String) (position : Nat) (value : Toml.Value) :
    BlamesText (field group name position value) := by
  cases value with
  | table entries => exact blamesText_ok _
  | array items => exact blamesText_ok _
  | moment literal => exact blamesText_ok _
  | string | integer | float | boolean => exact blamesText_wrongType _

theorem blamesText_boolean (name : String) (value : Option Toml.Value) :
    BlamesText (boolean name value) := by
  unfold boolean
  split
  · exact blamesText_ok _
  · exact blamesText_ok _
  · exact blamesText_wrongType _

theorem blamesText_texts (name : String) (items : List Toml.Value) :
    BlamesText (texts name items) := by
  induction items with
  | nil => exact blamesText_ok _
  | cons item rest ih =>
      cases item with
      | string text => exact ih.bind fun _ => blamesText_ok _
      | integer | float | boolean | moment | array | table => exact blamesText_wrongType _

theorem blamesText_textList (name : String) (value : Option Toml.Value) :
    BlamesText (textList name value) := by
  unfold textList
  split
  · exact blamesText_ok _
  · exact (blamesText_texts name _).bind fun _ => blamesText_ok _
  · exact blamesText_wrongType _

theorem blamesText_readOptions (group : Option Toml.Value) : BlamesText (readOptions group) := by
  cases group with
  | none => exact blamesText_ok _
  | some group =>
      refine (blamesText_field _ _ _ _).bind fun _ => (blamesText_boolean _ _).bind fun _ => ?_
      exact (blamesText_field _ _ _ _).bind fun _ => (blamesText_boolean _ _).bind fun _ =>
        blamesText_ok _

theorem blamesText_readFiles (options : Render.Options) (group : Option Toml.Value) :
    BlamesText (readFiles options group) := by
  cases group with
  | none => exact blamesText_ok _
  | some group =>
      refine (blamesText_field _ _ _ _).bind fun _ => (blamesText_textList _ _).bind fun _ => ?_
      exact (blamesText_field _ _ _ _).bind fun _ => (blamesText_textList _ _).bind fun _ =>
        blamesText_ok _

end Stated

theorem blamesText_parse (content : String) : BlamesText (parse content) := by
  unfold parse
  split
  · rintro error ⟨⟩
    rfl
  · exact (Stated.blamesText_field _ _ _ _).bind fun _ =>
      (Stated.blamesText_readOptions _).bind fun _ =>
        (Stated.blamesText_field _ _ _ _).bind fun _ => Stated.blamesText_readFiles _ _

/-! Extensions lose the points in front of them. -/

def Strips (extension stripped : String) : Prop :=
  ∃ count, extension.toList = List.replicate count '.' ++ stripped.toList ∧
    stripped.toList.head? ≠ some '.'

def OnlyPoints (extension : String) : Prop := ∀ c ∈ extension.toList, c = '.'

theorem strips_iff {extension stripped : String} :
    Strips extension stripped ↔ dropPoints extension = stripped := by
  constructor
  · rintro ⟨count, hextension, hhead⟩
    have hrest : stripped.toList.dropWhile (· == '.') = stripped.toList := by
      cases hchars : stripped.toList with
      | nil => rfl
      | cons c rest =>
          have hc : c ≠ '.' := by simpa [hchars] using hhead
          simp [hc]
    rw [dropPoints, hextension, List.dropWhile_append_of_pos (by simp), hrest,
      String.ofList_toList]
  · rintro rfl
    have hpoints : extension.toList.takeWhile (· == '.') =
        List.replicate (extension.toList.takeWhile (· == '.')).length '.' := by
      apply List.eq_replicate_length.mpr
      intro c hc
      simpa using List.all_eq_true.mp List.all_takeWhile c hc
    refine ⟨(extension.toList.takeWhile (· == '.')).length, ?_, ?_⟩
    · rw [← hpoints, dropPoints, String.toList_ofList, List.takeWhile_append_dropWhile]
    · rw [dropPoints, String.toList_ofList]
      intro hhead
      have hkept := List.head?_dropWhile_not (· == '.') extension.toList
      rw [hhead] at hkept
      simp at hkept

theorem dropPoints_eq_empty_iff {extension : String} :
    dropPoints extension = "" ↔ OnlyPoints extension := by
  rw [dropPoints, OnlyPoints, String.ofList_eq_empty_iff, List.dropWhile_eq_nil_iff]
  simp

theorem forall₂_strips_iff {listed extensions : List String} :
    List.Forall₂ Strips listed extensions ↔ listed.map dropPoints = extensions := by
  have hstrips : Strips = fun extension stripped => dropPoints extension = stripped := by
    funext extension stripped
    exact propext strips_iff
  rw [hstrips, ← List.forall₂_map_left_iff, List.forall₂_eq_eq_eq]

def stripped (stated : Option (List String)) : List String :=
  (stated.map (·.map dropPoints)).getD ["md", "markdown"]

/-- What the extensions come to that a file lists, if it does. -/
inductive Settles : Option (List String) → List String → Prop
  | usual : Settles none ["md", "markdown"]
  | listed {listed extensions : List String} (hlisted : listed ≠ [])
      (hpoints : ∀ extension ∈ listed, ¬ OnlyPoints extension)
      (hstrips : List.Forall₂ Strips listed extensions) : Settles (some listed) extensions

theorem settles_or (stated : Option (List String)) :
    (∃ extensions, Settles stated extensions) ∨ stated = some [] ∨
      ∃ listed, stated = some listed ∧ ∃ extension ∈ listed, OnlyPoints extension := by
  cases stated with
  | none => exact .inl ⟨_, .usual⟩
  | some listed =>
      by_cases hpoints : ∃ extension ∈ listed, OnlyPoints extension
      · exact .inr (.inr ⟨listed, rfl, hpoints⟩)
      · rw [not_exists] at hpoints
        by_cases hlisted : listed = []
        · exact .inr (.inl (congrArg some hlisted))
        · refine .inl ⟨listed.map dropPoints, .listed hlisted ?_ (forall₂_strips_iff.mpr rfl)⟩
          exact fun extension hmem honly => hpoints extension ⟨hmem, honly⟩

theorem Settles.stripped_eq {stated : Option (List String)} {extensions : List String}
    (hsettles : Settles stated extensions) :
    stripped stated = extensions := by
  cases hsettles with
  | usual => rfl
  | listed _ _ hstrips => exact forall₂_strips_iff.mp hstrips

theorem Settles.valid {stated : Option (List String)} {extensions : List String}
    (hsettles : Settles stated extensions) :
    extensions ≠ [] ∧ ∀ extension ∈ extensions, extension ≠ "" := by
  cases hsettles with
  | usual => decide
  | listed hlisted hpoints hstrips =>
      obtain rfl := forall₂_strips_iff.mp hstrips
      refine ⟨by simpa using hlisted, ?_⟩
      intro extension hextension
      obtain ⟨entry, hentry, rfl⟩ := List.mem_map.mp hextension
      exact fun hempty => hpoints entry hentry (dropPoints_eq_empty_iff.mp hempty)

/-! Entries are expanded in order, up to the first that lacks a variable. -/

section

variable {environment : Environment} {home : Home environment} {directory : Path}

/-- The path that an entry of a file in the directory stands for. -/
def Targets (home : Home environment) (directory : Path) (entry : String) (target : Path) : Prop :=
  ∃ expanded, Expands home entry (.ok expanded) ∧ target = directory.join ⟨expanded⟩

theorem targets_iff {entry : String} {target : Path} :
    Targets home directory entry target ↔
      ∃ expanded, expandEntry home entry = .ok expanded ∧ target = directory.join ⟨expanded⟩ := by
  simp only [Targets, expandEntry_eq_iff]

theorem expandEntries_of_targets {entries : List String} {ignore : List Path}
    (htargets : List.Forall₂ (Targets home directory) entries ignore) :
    ∃ expanded, expandEntries home entries = .ok expanded ∧
      expanded.map (fun entry => directory.join ⟨entry⟩) = ignore := by
  induction htargets with
  | nil => exact ⟨[], rfl, rfl⟩
  | cons htarget _ ih =>
      obtain ⟨expanded, hentry, rfl⟩ := htarget
      obtain ⟨others, hothers, rfl⟩ := ih
      refine ⟨expanded :: others, ?_, rfl⟩
      rw [expandEntries, hentry.expandEntry_eq, hothers]
      rfl

theorem expandEntries_of_unset {before after : List String} {entry name : String}
    (hbefore : ∀ earlier ∈ before, ∃ target, Targets home directory earlier target)
    (hentry : Expands home entry (.error name)) :
    expandEntries home (before ++ entry :: after) =
      .error (.unsetVariable "files.ignore" name) := by
  induction before with
  | nil => rw [List.nil_append, expandEntries, hentry.expandEntry_eq]
  | cons first rest ih =>
      obtain ⟨_, expanded, hfirst, rfl⟩ := hbefore first (by simp)
      have hrest := ih fun earlier hearlier => hbefore earlier (by simp [hearlier])
      rw [List.cons_append, expandEntries, hfirst.expandEntry_eq, hrest]
      rfl

theorem expandEntries_congr {own : Environment} {others : Home own}
    (henvironment : own = environment) (hpath : others.path? = home.path?)
    (entries : List String) : expandEntries others entries = expandEntries home entries := by
  subst henvironment
  rw [Home.ext hpath]

theorem targets_or (home : Home environment) (directory : Path) (entries : List String) :
    (∃ ignore, List.Forall₂ (Targets home directory) entries ignore) ∨
      ∃ before entry after name, entries = before ++ entry :: after ∧
        (∀ earlier ∈ before, ∃ target, Targets home directory earlier target) ∧
        Expands home entry (.error name) := by
  induction entries with
  | nil => exact .inl ⟨[], .nil⟩
  | cons entry rest ih =>
      obtain ⟨name | expanded, hentry⟩ := exists_expands home entry
      · exact .inr ⟨[], entry, rest, name, rfl, by simp, hentry⟩
      · have htarget : Targets home directory entry (directory.join ⟨expanded⟩) :=
          ⟨expanded, hentry, rfl⟩
        rcases ih with ⟨ignore, hrest⟩ | ⟨before, unset, after, name, rfl, hbefore, hunset⟩
        · exact .inl ⟨_ :: ignore, .cons htarget hrest⟩
        · refine .inr ⟨entry :: before, unset, after, name, rfl, ?_, hunset⟩
          intro earlier hearlier
          rcases List.mem_cons.mp hearlier with rfl | hearlier
          · exact ⟨_, htarget⟩
          · exact hbefore earlier hearlier

end

/-! What a settings file comes to. -/

section

variable {surroundings : Surroundings} {path : Path}

def directoryOf (path : Path) : Path := path.parent?.getD ⟨"."⟩

/-- The file can be read, and this is what it says. -/
def Tells (surroundings : Surroundings) (path : Path) (stated : Stated) : Prop :=
  ∃ content, surroundings.read path = .ok content ∧ parse content = .ok stated

/-- The entries of the file stand for these paths. -/
def Ignores (surroundings : Surroundings) (path : Path) (stated : Stated) (ignore : List Path) :
    Prop :=
  List.Forall₂ (Targets surroundings.home (directoryOf path)) (stated.ignore.getD []) ignore

/-- The file is read, then its text, then its entries and at last its extensions. The first of these
that fails is the one reported. -/
inductive Reads (surroundings : Surroundings) (path : Path) : Except SettingsError Settings → Prop
  | unreadable {cause : FileError} (hread : surroundings.read path = .error cause) :
      Reads surroundings path (.error (.unreadable cause))
  | malformed {content : String} {error : SettingsError}
      (hread : surroundings.read path = .ok content) (hparse : parse content = .error error)
      (hconcerns : error.concernsText = true) : Reads surroundings path (.error error)
  | unset {stated : Stated} {before after : List String} {entry name : String}
      (htells : Tells surroundings path stated)
      (hentries : stated.ignore.getD [] = before ++ entry :: after)
      (hbefore : ∀ earlier ∈ before,
        ∃ target, Targets surroundings.home (directoryOf path) earlier target)
      (hentry : Expands surroundings.home entry (.error name)) :
      Reads surroundings path (.error (.unsetVariable "files.ignore" name))
  | noExtensions {stated : Stated} {ignore : List Path} (htells : Tells surroundings path stated)
      (hignores : Ignores surroundings path stated ignore) (hstated : stated.extensions = some []) :
      Reads surroundings path (.error .noExtensions)
  | emptyExtension {stated : Stated} {ignore : List Path} {listed : List String}
      {extension : String} (htells : Tells surroundings path stated)
      (hignores : Ignores surroundings path stated ignore)
      (hstated : stated.extensions = some listed) (hextension : extension ∈ listed)
      (hpoints : OnlyPoints extension) : Reads surroundings path (.error .emptyExtension)
  | settled {stated : Stated} {ignore : List Path} {extensions : List String}
      (htells : Tells surroundings path stated)
      (hignores : Ignores surroundings path stated ignore)
      (hsettles : Settles stated.extensions extensions) :
      Reads surroundings path
        (.ok { options := stated.options, extensions, ignore, file := some path })

theorem exists_reads (surroundings : Surroundings) (path : Path) :
    ∃ result, Reads surroundings path result := by
  -- One case for each stage at which reading may stop, in their order.
  cases hread : surroundings.read path with
  | error cause => exact ⟨_, .unreadable hread⟩
  | ok content =>
      cases hparse : parse content with
      | error error => exact ⟨_, .malformed hread hparse (blamesText_parse content error hparse)⟩
      | ok stated =>
          have htells : Tells surroundings path stated := ⟨content, hread, hparse⟩
          obtain ⟨ignore, hignores⟩ | ⟨before, entry, after, name, hentries, hbefore, hentry⟩ :=
            targets_or surroundings.home (directoryOf path) (stated.ignore.getD [])
          · obtain ⟨extensions, hsettles⟩ | hempty | ⟨listed, hlisted, extension, hmem, hpoints⟩ :=
              settles_or stated.extensions
            · exact ⟨_, .settled htells hignores hsettles⟩
            · exact ⟨_, .noExtensions htells hignores hempty⟩
            · exact ⟨_, .emptyExtension htells hignores hlisted hmem hpoints⟩
          · exact ⟨_, .unset htells hentries hbefore hentry⟩

theorem loadFile_of_tells {stated : Stated} (htells : Tells surroundings path stated) :
    loadFile surroundings path = (do
      let entries ← expandEntries surroundings.home (stated.ignore.getD [])
      (resolve path stated entries).validate
      return resolve path stated entries) := by
  obtain ⟨content, hread, hparse⟩ := htells
  rw [loadFile, hread]
  change (parse content >>= _) = _
  rw [hparse]
  rfl

theorem loadFile_of_ignores {stated : Stated} {ignore : List Path} {extensions : List String}
    (htells : Tells surroundings path stated) (hignores : Ignores surroundings path stated ignore)
    (hextensions : stripped stated.extensions = extensions) :
    loadFile surroundings path = (do
      let settings : Settings :=
        { options := stated.options, extensions, ignore, file := some path }
      settings.validate
      return settings) := by
  obtain ⟨expanded, hexpanded, rfl⟩ := expandEntries_of_targets hignores
  subst hextensions
  rw [loadFile_of_tells htells, hexpanded]
  rfl

theorem validate_eq_ok {settings : Settings} (hlisted : settings.extensions ≠ [])
    (hnonempty : ∀ extension ∈ settings.extensions, extension ≠ "") :
    settings.validate = .ok () := by
  have hany : settings.extensions.any String.isEmpty = false := by
    rw [List.any_eq_false]
    intro extension hextension
    simpa using hnonempty extension hextension
  rw [validate, if_neg (by simpa using hlisted), if_neg (by simp [hany])]

theorem validate_eq_emptyExtension {settings : Settings} (hempty : "" ∈ settings.extensions) :
    settings.validate = .error .emptyExtension := by
  have hlisted : settings.extensions ≠ [] := List.ne_nil_of_mem hempty
  have hany : settings.extensions.any String.isEmpty = true :=
    List.any_eq_true.mpr ⟨"", hempty, rfl⟩
  rw [validate, if_neg (by simpa using hlisted), if_pos hany]

theorem Reads.loadFile_eq {result : Except SettingsError Settings}
    (hreads : Reads surroundings path result) : loadFile surroundings path = result := by
  cases hreads with
  | unreadable hread => rw [loadFile, hread]
  | malformed hread hparse =>
      rw [loadFile, hread]
      change (parse _ >>= _) = _
      rw [hparse]
      rfl
  | unset htells hentries hbefore hentry =>
      rw [loadFile_of_tells htells, hentries, expandEntries_of_unset hbefore hentry]
      rfl
  | noExtensions htells hignores hstated =>
      rw [loadFile_of_ignores htells hignores (congrArg stripped hstated)]
      rfl
  | @emptyExtension stated ignore listed extension htells hignores hstated hextension hpoints =>
      have hempty : "" ∈ listed.map dropPoints :=
        List.mem_map.mpr ⟨extension, hextension, dropPoints_eq_empty_iff.mpr hpoints⟩
      rw [loadFile_of_ignores htells hignores (congrArg stripped hstated)]
      change (validate _ >>= _) = _
      rw [validate_eq_emptyExtension hempty]
      rfl
  | settled htells hignores hsettles =>
      obtain ⟨hlisted, hnonempty⟩ := hsettles.valid
      rw [loadFile_of_ignores htells hignores hsettles.stripped_eq]
      change (validate _ >>= _) = _
      rw [validate_eq_ok hlisted hnonempty]
      rfl

theorem Reads.valid {settings : Settings} (hreads : Reads surroundings path (.ok settings)) :
    settings.extensions ≠ [] ∧ ∀ extension ∈ settings.extensions, extension ≠ "" := by
  cases hreads with
  | settled _ _ hsettles => exact hsettles.valid

theorem not_reads_notFound {missing : Path} :
    ¬ Reads surroundings path (.error (.notFound missing)) := by
  intro hreads
  cases hreads with
  | malformed _ _ hconcerns => exact Bool.false_ne_true hconcerns

end

/-! Which file is taken. -/

section

variable {surroundings : Surroundings}

def fileIn (location : Location) : Path := location.path.join fileName

def settledIn (surroundings : Surroundings) (location : Location) : Bool :=
  surroundings.has (fileIn location)

/-- A file that is named has to be there. Without one the nearest is taken, or else the usual
settings. -/
inductive Loads (surroundings : Surroundings) :
    Option Path → Except SettingsError Settings → Prop
  | missing {path : Path} (hmissing : surroundings.has path = false) :
      Loads surroundings (some path) (.error (.notFound path))
  | named {path : Path} {result : Except SettingsError Settings}
      (hthere : surroundings.has path = true) (hreads : Reads surroundings path result) :
      Loads surroundings (some path) result
  | nearest {location : Location} {result : Except SettingsError Settings}
      (hnearest : Location.Nearest (settledIn surroundings) surroundings.directory location)
      (hreads : Reads surroundings (fileIn location) result) : Loads surroundings none result
  | usual (hnowhere : ∀ location, location <+: surroundings.directory →
        settledIn surroundings location = false) : Loads surroundings none (.ok {})

theorem discover?_eq (surroundings : Surroundings) :
    discover? surroundings =
      (surroundings.directory.upwards.find? (settledIn surroundings)).map fileIn := by
  rw [discover?, candidates, List.find?_map]
  rfl

theorem discover?_eq_none (hnowhere : ∀ location, location <+: surroundings.directory →
    settledIn surroundings location = false) : discover? surroundings = none := by
  have hnone : surroundings.directory.upwards.find? (settledIn surroundings) = none := by
    rw [List.find?_eq_none]
    intro location hlocation
    simp [hnowhere location (Location.mem_upwards.mp hlocation)]
  rw [discover?_eq, hnone]
  rfl

theorem exists_loads (surroundings : Surroundings) (path : Option Path) :
    ∃ result, Loads surroundings path result := by
  cases path with
  | some path =>
      cases hthere : surroundings.has path with
      | false => exact ⟨_, .missing hthere⟩
      | true =>
          obtain ⟨result, hreads⟩ := exists_reads surroundings path
          exact ⟨result, .named hthere hreads⟩
  | none =>
      obtain ⟨location, hnearest⟩ | hnowhere :=
        Location.nearest_or (settledIn surroundings) surroundings.directory
      · obtain ⟨result, hreads⟩ := exists_reads surroundings (fileIn location)
        exact ⟨result, .nearest hnearest hreads⟩
      · exact ⟨_, .usual hnowhere⟩

theorem Loads.loadStated_eq {path : Option Path} {result : Except SettingsError Settings}
    (hloads : Loads surroundings path result) : loadStated surroundings path = result := by
  cases hloads with
  | missing hmissing => rw [loadStated, if_neg (by simp [hmissing])]
  | named hthere hreads => rw [loadStated, if_pos hthere, hreads.loadFile_eq]
  | nearest hnearest hreads =>
      rw [loadStated, discover?_eq, hnearest.find?_upwards]
      exact hreads.loadFile_eq
  | usual hnowhere => rw [loadStated, discover?_eq_none hnowhere]

theorem loadStated_eq_iff {path : Option Path} {result : Except SettingsError Settings} :
    loadStated surroundings path = result ↔ Loads surroundings path result := by
  constructor
  · -- Something is loaded by the rules, and loading gives what the rules allow.
    rintro rfl
    obtain ⟨result, hloads⟩ := exists_loads surroundings path
    rwa [hloads.loadStated_eq]
  · exact Loads.loadStated_eq

theorem Loads.valid {path : Option Path} {settings : Settings}
    (hloads : Loads surroundings path (.ok settings)) :
    settings.extensions ≠ [] ∧ ∀ extension ∈ settings.extensions, extension ≠ "" := by
  cases hloads with
  | named _ hreads => exact hreads.valid
  | nearest _ hreads => exact hreads.valid
  | usual _ => exact Settles.usual.valid

theorem loads_notFound_iff {path : Path} :
    (∃ missing, Loads surroundings (some path) (.error (.notFound missing))) ↔
      surroundings.has path = false := by
  constructor
  · rintro ⟨missing, hloads⟩
    cases hloads with
    | missing hmissing => exact hmissing
    | named _ hreads => exact absurd hreads not_reads_notFound
  · exact fun hmissing => ⟨path, .missing hmissing⟩

end

/-! The command line has the last word on rendering. -/

section

variable {surroundings : Surroundings} {path : Option Path} {preferences : Preferences}

theorem load_eq_map (surroundings : Surroundings) (path : Option Path) (preferences : Preferences) :
    load surroundings path preferences =
      (loadStated surroundings path).map (prefer preferences) := by
  rw [load]
  cases loadStated surroundings path with
  | error error => rfl
  | ok settings => rfl

theorem load_silent (surroundings : Surroundings) (path : Option Path) :
    load surroundings path {} = loadStated surroundings path := by
  rw [load_eq_map]
  cases loadStated surroundings path with
  | error error => rfl
  | ok settings => rfl

theorem load_eq_error_iff {error : SettingsError} :
    load surroundings path preferences = .error error ↔
      Loads surroundings path (.error error) := by
  rw [load_eq_map, ← loadStated_eq_iff]
  cases loadStated surroundings path with
  | error cause => rfl
  | ok settings => simp [Except.map]

theorem load_eq_ok {settings : Settings}
    (hload : load surroundings path preferences = .ok settings) :
    ∃ stated, Loads surroundings path (.ok stated) ∧ settings = stated.prefer preferences := by
  rw [load_eq_map] at hload
  cases hstated : loadStated surroundings path with
  | error error =>
      rw [hstated] at hload
      cases hload
  | ok stated =>
      rw [hstated] at hload
      cases hload
      exact ⟨stated, loadStated_eq_iff.mp hstated, rfl⟩

/-- Nothing but the named file, the variables of the environment and the home directory counts. -/
theorem loadStated_some_congr {other : Surroundings} {path : Path}
    (hhas : other.has path = surroundings.has path)
    (hread : other.read path = surroundings.read path)
    (henvironment : other.environment = surroundings.environment)
    (hhome : other.home.path? = surroundings.home.path?) :
    loadStated other (some path) = loadStated surroundings (some path) := by
  simp only [loadStated, loadFile, hhas, hread, expandEntries_congr henvironment hhome]

/-- Settings are those of the file that is named, of the nearest one or the usual ones, and the
command line replaces what it speaks of. Where a file is named no other counts. -/
theorem load_resolves (surroundings : Surroundings) (preferences : Preferences) :
    (∀ path result, load surroundings path {} = result ↔ Loads surroundings path result) ∧
      (∀ path, load surroundings path preferences =
        (load surroundings path {}).map fun settings =>
          { settings with
            options :=
              { hardWraps := preferences.hardWraps.getD settings.options.hardWraps
                terminalStyling :=
                  preferences.terminalStyling.getD settings.options.terminalStyling } }) ∧
      (∀ path, (∃ missing, load surroundings (some path) preferences =
        .error (.notFound missing)) ↔ surroundings.has path = false) ∧
      (∀ path (other : Surroundings), other.has path = surroundings.has path →
        other.read path = surroundings.read path →
        other.environment = surroundings.environment →
        other.home.path? = surroundings.home.path? →
          load other (some path) preferences = load surroundings (some path) preferences) ∧
      ∀ path settings, load surroundings path preferences = .ok settings →
        settings.extensions ≠ [] ∧ ∀ extension ∈ settings.extensions, extension ≠ "" := by
  refine ⟨fun path result => ?_, fun path => ?_, fun path => ?_, ?_, ?_⟩
  · rw [load_silent, loadStated_eq_iff]
  · rw [load_silent, load_eq_map]
    rfl
  · simp only [load_eq_error_iff]
    exact loads_notFound_iff
  · intro path other hhas hread henvironment hhome
    rw [load_eq_map, load_eq_map, loadStated_some_congr hhas hread henvironment hhome]
  · intro path settings hload
    obtain ⟨stated, hloads, rfl⟩ := load_eq_ok hload
    exact hloads.valid

end

def siteFile : String :=
  "[render]\nhard_wraps = true\n[files]\nextensions = ['.md', '..mdx']\n" ++
    "ignore = ['$\x7bOUT\x7d/drafts', '~/drafts', '$\x7bKEPT:-old\x7d']\n"

/-- Work below a directory that has a settings file. -/
def site : Surroundings where
  files.entry?
    | [] | ["srv"] | ["srv", "docs"] => some .directory
    | ["srv", "mdfmt.toml"] => some (.file (Bytes.ofText siteFile))
    | _ => none
  directory := ["srv", "docs"]
  environment := .ofPairs [("OUT", "build"), ("HOME", "/home/site")]

def siteSettings : Settings where
  options := { hardWraps := true }
  extensions := ["md", "mdx"]
  ignore := [⟨"/srv/build/drafts"⟩, ⟨"/home/site/drafts"⟩, ⟨"/srv/old"⟩]
  file := some ⟨"/srv/mdfmt.toml"⟩

theorem loads_site : Loads site none (.ok siteSettings) := by
  have hread : site.read ⟨"/srv/mdfmt.toml"⟩ = .ok siteFile := by
    have hlocate : site.files.locate site.directory ⟨"/srv/mdfmt.toml"⟩ =
        .ok ["srv", "mdfmt.toml"] := by decide +kernel
    exact FileSystem.read_eq_ok_iff.mpr ⟨_, hlocate, rfl⟩
  have htells : Tells site ⟨"/srv/mdfmt.toml"⟩
      { options := { hardWraps := true }, extensions := some [".md", "..mdx"],
        ignore := some ["$\x7bOUT\x7d/drafts", "~/drafts", "$\x7bKEPT:-old\x7d"] } :=
    ⟨siteFile, hread, by decide +kernel⟩
  have hset : Targets site.home (directoryOf ⟨"/srv/mdfmt.toml"⟩) "$\x7bOUT\x7d/drafts"
      ⟨"/srv/build/drafts"⟩ :=
    ⟨"build/drafts", expandEntry_eq_iff.mp (by cbv), by decide +kernel⟩
  have hhome : Targets site.home (directoryOf ⟨"/srv/mdfmt.toml"⟩) "~/drafts"
      ⟨"/home/site/drafts"⟩ :=
    ⟨"/home/site/drafts", expandEntry_eq_iff.mp (by cbv), by decide +kernel⟩
  have hdefault : Targets site.home (directoryOf ⟨"/srv/mdfmt.toml"⟩) "$\x7bKEPT:-old\x7d"
      ⟨"/srv/old"⟩ :=
    ⟨"old", expandEntry_eq_iff.mp (by cbv), by decide +kernel⟩
  have hsettles : Settles (some [".md", "..mdx"]) ["md", "mdx"] :=
    .listed (by decide) (by simp [OnlyPoints]) (forall₂_strips_iff.mpr (by decide +kernel))
  have hsrv : Location.Nearest (settledIn site) ["srv"] ["srv"] :=
    Location.nearest_self (by decide +kernel)
  have hpath : fileIn ["srv"] = ⟨"/srv/mdfmt.toml"⟩ := by decide +kernel
  refine .nearest (hsrv.concat (by decide +kernel)) ?_
  rw [hpath]
  exact .settled htells (.cons hset (.cons hhome (.cons hdefault .nil))) hsettles

/-- The nearest settings file is in the directory above, and the command line wants no hard wraps.
Named from that directory it is the same. -/
theorem site_resolved :
    Loads site none (.ok siteSettings) ∧
      load site none { hardWraps := some false } = .ok { siteSettings with options := {} } ∧
      siteSettings.extensions ≠ [] ∧
      load { site with directory := ["srv"] } (some ⟨"/srv/mdfmt.toml"⟩)
        { hardWraps := some false } =
        load site (some ⟨"/srv/mdfmt.toml"⟩) { hardWraps := some false } := by
  obtain ⟨hloads, hprefers, -, hnamed, hvalid⟩ := load_resolves site { hardWraps := some false }
  have hload : load site none { hardWraps := some false } =
      .ok { siteSettings with options := {} } := by
    rw [hprefers none, (hloads none _).mpr loads_site]
    rfl
  have hlocate : site.files.locate ["srv"] ⟨"/srv/mdfmt.toml"⟩ =
      site.files.locate site.directory ⟨"/srv/mdfmt.toml"⟩ :=
    site.files.locate_absolute (by decide) _ _
  have hsame := hnamed ⟨"/srv/mdfmt.toml"⟩ { site with directory := ["srv"] }
    (by rw [Surroundings.has, Surroundings.has, FileSystem.has, FileSystem.has, hlocate])
    (by rw [Surroundings.read, Surroundings.read, FileSystem.read, FileSystem.read, hlocate])
    rfl rfl
  exact ⟨loads_site, hload, (hvalid none _ hload).1, hsame⟩

end Settings

end CanonicalMarkdown
