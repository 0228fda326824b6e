namespace CanonicalMarkdown

/-! A path is kept as it was written. Only its components count when paths are compared. -/

structure Path where
  text : String
  deriving DecidableEq, Repr

inductive Component where
  | root
  | current
  | parent
  | name (name : String)
  deriving DecidableEq, Repr

namespace Path

def chars (path : Path) : List Char := path.text.toList

def isEmpty (path : Path) : Bool := path.text.isEmpty

def isAbsolute (path : Path) : Bool := path.chars.head? == some '/'

/-- What stands between slashes, empty pieces included. -/
def split : List Char → List (List Char)
  | [] => [[]]
  | c :: rest =>
      if c = '/' then [] :: split rest
      else match split rest with
        | [] => [[c]]
        | piece :: pieces => (c :: piece) :: pieces

def pieces (path : Path) : List (List Char) := split path.chars

/-- The component of a piece. Empty pieces and points are none. -/
def component? : List Char → Option Component
  | [] | ['.'] => none
  | ['.', '.'] => some .parent
  | name => some (.name (String.ofList name))

/-- A point counts only where it leads a relative path. -/
def components (path : Path) : List Component :=
  if path.isAbsolute then .root :: path.pieces.filterMap component?
  else match path.pieces with
    | ['.'] :: rest => .current :: rest.filterMap component?
    | pieces => pieces.filterMap component?

/-- Whether `base` is the path or one of the directories above it. -/
def startsWith (path base : Path) : Bool := base.components.isPrefixOf path.components

def fileName? (path : Path) : Option String :=
  match path.components.getLast? with
  | some (.name name) => some name
  | _ => none

/-- What follows the last point of a name, unless the name starts with that point. -/
def extensionOf? (name : String) : Option String :=
  let reversed := name.toList.reverse
  let ending := reversed.takeWhile (· != '.')
  match reversed.drop ending.length with
  | _ :: _ :: _ => some (String.ofList ending.reverse)
  | _ => none

def extension? (path : Path) : Option String := path.fileName?.bind extensionOf?

/-- The other path as seen from this one. -/
def join (base other : Path) : Path :=
  if other.isAbsolute then other
  else if base.isEmpty || base.chars.getLast? == some '/' then ⟨base.text ++ other.text⟩
  else ⟨base.text ++ "/" ++ other.text⟩

/-! The directory that holds a path. -/

/-- The slash of an absolute path or the leading point of a relative one, and the rest. -/
def splitLead : List Char → List Char × List Char
  | '/' :: rest => (['/'], rest)
  | ['.'] => (['.'], [])
  | '.' :: '/' :: rest => (['.'], '/' :: rest)
  | chars => ([], chars)

/-- Drops slashes and lone points from the front of a reversed path. -/
def dropIdle : List Char → List Char
  | '/' :: rest => dropIdle rest
  | ['.'] => []
  | '.' :: '/' :: rest => dropIdle rest
  | chars => chars

def parent? (path : Path) : Option Path :=
  let (lead, body) := splitLead path.chars
  match dropIdle body.reverse with
  | [] => if lead == ['.'] then some ⟨""⟩ else none
  | last => some ⟨String.ofList (lead ++ (dropIdle (last.dropWhile (· != '/'))).reverse)⟩

end Path

/-! A location is the list of names that lead to it from the root. -/

abbrev Location := List String

def Location.path (location : Location) : Path :=
  ⟨"/" ++ String.intercalate "/" location⟩

/-- The location and all that hold it, from the nearest outwards. -/
def Location.upwards (location : Location) : List Location :=
  (List.range (location.length + 1)).reverse.map fun count => location.take count

/-- The names in an absolute path that has no steps back. -/
def Path.names (path : Path) : Location :=
  path.components.filterMap fun component =>
    match component with
    | .name name => some name
    | _ => none

/-- The locations passed on the way, if everything on it is there. -/
def Location.visited (location : Location) : List Component → List Location
  | [] => [location]
  | .root :: rest | .current :: rest => visited location rest
  | .parent :: rest => location :: visited location.dropLast rest
  | .name name :: rest => location :: visited (location ++ [name]) rest

def Path.locations (directory : Location) (path : Path) : List Location :=
  let start : Location := if path.isAbsolute then [] else directory
  start.upwards ++ start.visited path.components

/-- The path as seen from the root, given the directory it was named in. -/
def Path.absolute (directory : Location) (path : Path) : Path := directory.path.join path

end CanonicalMarkdown
