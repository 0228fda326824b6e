import CanonicalMarkdown.Text.Alphanumeric

namespace CanonicalMarkdown.Settings

/-! Entries may refer to variables of the environment. -/

structure Environment where
  find? : String → Option String

namespace Environment

def empty : Environment := ⟨fun _ => none⟩

/-- No variable has an empty name or one with an equals sign in it. -/
def value? (environment : Environment) (name : String) : Option String :=
  if name.isEmpty || name.contains '=' then none else environment.find? name

/-- The home directory that a variable names. -/
def home? (environment : Environment) : Option String :=
  (environment.value? "HOME").filter (!·.isEmpty)

end Environment

/-- The home directory as the system tells it. It may know one that no variable names. -/
structure Home (environment : Environment) where
  path? : Option String
  of_variable : ∀ path, environment.home? = some path → path? = some path

/-- The variable comes before what is on record about the user. -/
def Home.ofRecord (environment : Environment) (recorded : Option String) : Home environment where
  path? := environment.home?.or recorded
  of_variable path hpath := by rw [hpath, Option.some_or]

inductive Piece where
  | text (chars : List Char)
  | reference (name : String) (default : Option String)
  deriving DecidableEq, Repr

namespace Piece

def name? : Piece → Option String
  | .text _ => none
  | .reference name _ => some name

/-- What stands before and after the first colon with a dash. -/
def splitDefault? (before : List Char) : List Char → Option (List Char × List Char)
  | [] => none
  | ':' :: '-' :: rest => some (before.reverse, rest)
  | c :: rest => splitDefault? (c :: before) rest

/-- The reference between braces. A default needs a name before it. -/
def braced (inner : List Char) : Piece :=
  match splitDefault? [] inner with
  | some (c :: name, default) =>
      .reference (String.ofList (c :: name)) (some (String.ofList default))
  | _ => .reference (String.ofList inner) none

def isNameChar (c : Char) : Bool := Text.isAlphanumeric c || c == '_'

/-- The pieces of an entry. A dollar sign that starts no reference is text, two of them are one, and
so is an opening brace that is never closed. -/
def ofChars : (steps : Nat) → List Char → List Piece
  | 0, _ => []
  | _, [] => []
  | steps + 1, '$' :: '\x7b' :: body =>
      let inner := body.takeWhile (· != '\x7d')
      match body.drop inner.length with
      | _ :: rest => braced inner :: ofChars steps rest
      | [] => .text ['$', '\x7b'] :: ofChars steps body
  | steps + 1, '$' :: '$' :: rest => .text ['$'] :: ofChars steps rest
  | steps + 1, '$' :: rest =>
      let name := rest.takeWhile isNameChar
      if name.isEmpty then .text ['$'] :: ofChars steps rest
      else .reference (String.ofList name) none :: ofChars steps (rest.drop name.length)
  | steps + 1, c :: rest => .text [c] :: ofChars steps rest

/-- The text of a piece, or the name of the variable it lacks. -/
def expand (environment : Environment) : Piece → Except String (List Char)
  | .text chars => .ok chars
  | .reference name default =>
      match environment.value? name, default with
      | some value, _ => .ok value.toList
      | none, some default => .ok default.toList
      | none, none => .error name

def expandAll (environment : Environment) : List Piece → Except String (List Char)
  | [] => .ok []
  | piece :: rest => do return (← piece.expand environment) ++ (← expandAll environment rest)

end Piece

def hasBracedReference : List Char → Bool
  | '$' :: '\x7b' :: _ => true
  | _ :: rest => hasBracedReference rest
  | [] => false

/-- Without a braced reference an entry stands as it is. -/
def expandVariables (environment : Environment) (entry : List Char) : Except String (List Char) :=
  if hasBracedReference entry then
    Piece.expandAll environment (Piece.ofChars entry.length entry)
  else
    .ok entry

/-- A leading tilde that is a whole component stands for the home directory. -/
def expandHome (home? : Option String) (entry : List Char) : List Char :=
  match entry, home? with
  | ['~'], some home => home.toList
  | '~' :: '/' :: rest, some home => home.toList ++ '/' :: rest
  | _, _ => entry

def expandEntry {environment : Environment} (home : Home environment) (entry : String) :
    Except String String := do
  let expanded ← expandVariables environment entry.toList
  return String.ofList (expandHome home.path? expanded)

end CanonicalMarkdown.Settings
