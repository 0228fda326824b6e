namespace CanonicalMarkdown.Toml

/-! Values of a settings file. -/

inductive Value where
  | string (value : String)
  | integer (value : Int)
  | float (literal : String)
  | boolean (value : Bool)
  /-- A date, a time of day, or both. -/
  | moment (literal : String)
  | array (items : List Value)
  | table (entries : List (String × Value))

/-- Why a text is not a settings file. -/
inductive ReadError where
  | controlCharacter
  | unexpectedCharacter
  | unclosedString
  | unknownEscape
  | malformedKey
  | malformedValue
  | unclosedHeader
  | unclosedArray
  | unclosedTable
  | redefinedKey (key : String)
  | tooDeep
  deriving DecidableEq, Repr

def ReadError.message : ReadError → String
  | .controlCharacter => "invalid control character"
  | .unexpectedCharacter => "unexpected character"
  | .unclosedString => "unclosed string"
  | .unknownEscape => "unknown escape"
  | .malformedKey => "invalid key"
  | .malformedValue => "invalid value"
  | .unclosedHeader => "unclosed table header"
  | .unclosedArray => "unclosed array"
  | .unclosedTable => "unclosed inline table"
  | .redefinedKey key => "duplicate key " ++ key
  | .tooDeep => "recursion limit"

/-- How many collections may stand inside one another, and how many names make up a key. -/
def greatestDepth : Nat := 80

end CanonicalMarkdown.Toml
