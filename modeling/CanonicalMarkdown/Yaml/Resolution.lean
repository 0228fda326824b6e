import CanonicalMarkdown.Yaml.Node
import CanonicalMarkdown.Yaml.Token

namespace CanonicalMarkdown.Yaml

/-! What a scalar stands for, by its tag and its style. -/

namespace Value

def ofInteger (value : Int) : Except ReadError Value :=
  if -(Nat.pow 2 63 : Int) ≤ value ∧ value < (Nat.pow 2 64 : Int) then .ok (.integer value)
  else .error .numberOutOfRange

def ofPlain (text : String) : Except ReadError Value :=
  let chars := text.toList
  if Scalar.isNull text then .ok .null
  else match Scalar.boolean? text with
    | some value => .ok (.boolean value)
    | none =>
        match Scalar.integer? chars with
        | some value => ofInteger value
        | none =>
            match if Scalar.isZeroPadded chars then none else Scalar.float? chars with
            | some value => .ok (.float value)
            | none => .ok (.string text)

def ofScalar (text : String) (plain : Bool) : Except ReadError Value :=
  if plain then ofPlain text else .ok (.string text)

def expect (value : Option Value) : Except ReadError Value :=
  match value with
  | some value => .ok value
  | none => .error .invalidTaggedScalar

/-- The tags of the format itself fix how a scalar is read. -/
def ofCoreTag (name text : String) : Except ReadError Value :=
  match name with
  | "bool" => expect ((Scalar.boolean? text).map .boolean)
  | "int" =>
      match Scalar.integer? text.toList with
      | some value => ofInteger value
      | none => .error .invalidTaggedScalar
  | "float" => expect ((Scalar.float? text.toList).map .float)
  | "null" => expect (if Scalar.isNull text && text != "" then some .null else none)
  | _ => .ok (.string text)

end Value

namespace Tag

def applyToScalar (tag : Tag) (text : String) (plain : Bool) : Except ReadError Value :=
  match tag with
  | .absent => Value.ofScalar text plain
  | .core name => Value.ofCoreTag name text
  | .own name => (Value.ofScalar text plain).map (.tagged name)
  | .foreign => .ok (.string text)

def applyToCollection (tag : Tag) (value : Value) : Value :=
  match tag with
  | .own name => .tagged name value
  | .absent | .core _ | .foreign => value

end Tag

/-! Aliases are followed while the document becomes a value, and each time counts. -/

abbrev Resolving := StateT Nat (Except ReadError)

namespace Node

/-- The node itself, or the last one to start with the number of the alias. -/
def follow (targets : Anchored) : Node → Resolving Node
  | .alias number => do
      match ← get, targets.lookup number with
      | 0, _ => throw .tooManyAliases
      | left + 1, some target =>
          set left
          return target
      | _ + 1, none => throw .unknownAlias
  | node => return node

def resolveEntries (resolve : Node → Resolving Value) (done : List (Value × Value)) :
    List (Node × Node) → Resolving (List (Value × Value))
  | [] => return done
  | (key, value) :: rest => do
      let key ← resolve key
      if Value.hasKey done key then throw .duplicateKey
      let value ← resolve value
      resolveEntries resolve (done ++ [(key, value)]) rest

/-- The value of a node with at most `depth` collections inside one another. -/
def resolve (targets : Anchored) (depth : Nat) (node : Node) : Resolving Value := do
  match ← node.follow targets with
  | .alias _ => throw .unknownAlias
  | .scalar properties text plain => properties.tag.applyToScalar text plain
  | .sequence properties items =>
      match depth with
      | 0 => throw .tooDeep
      | depth + 1 =>
          let items ← items.mapM (resolve targets depth)
          return properties.tag.applyToCollection (.sequence items)
  | .mapping properties entries =>
      match depth with
      | 0 => throw .tooDeep
      | depth + 1 =>
          let entries ← resolveEntries (resolve targets depth) [] entries
          return properties.tag.applyToCollection (.mapping entries)

def greatestDepth : Nat := 128

/-- How often aliases may be followed for each part of a document. -/
def aliasesPerPart : Nat := 100

def toValue (root : Node) : Except ReadError Value :=
  (root.resolve root.anchored.reverse greatestDepth).run' (aliasesPerPart * root.size)

end Node

end CanonicalMarkdown.Yaml
