import Dependence.Json.Quoted
import Dependence.Text.Separated

/-!
# Compact JSON text

The text of a tree without blanks, the members of an object in their order.
-/

namespace Dependence

/-- The text of a number. -/
def Number.text : Number → List Char
  | .integer i => (toString i).toList
  | .real x => x.text

mutual

/-- The text of a tree. -/
def Json.compact : Json → List Char
  | .null => "null".toList
  | .boolean true => "true".toList
  | .boolean false => "false".toList
  | .number n => n.text
  | .string s => Quoted.encode s
  | .array items => '[' :: Text.separated [','] (Json.compactItems items) ++ [']']
  | .object members => '\x7b' :: Text.separated [','] (Json.compactMembers members) ++ ['\x7d']

/-- The texts of the items of an array. -/
def Json.compactItems : List Json → List (List Char)
  | [] => []
  | item :: items => item.compact :: Json.compactItems items

/-- The texts of the members of an object. -/
def Json.compactMembers : List (String × Json) → List (List Char)
  | [] => []
  | (name, value) :: members =>
    (Quoted.encode name ++ ':' :: value.compact) :: Json.compactMembers members

end

/-- The text of a tree as a string. -/
def Json.text (v : Json) : String := String.ofList v.compact

end Dependence
