import Dependence.Json
import Dependence.Text.Quote

/-!
# Mismatches

The ways in which well-formed JSON can fail to be what a reader expects, and the sentence for each.
-/

namespace Dependence

/-- What a reader met in place of what it expected. -/
inductive Found
  | null
  | boolean (b : Bool)
  | integer (i : Int)
  | real (x : Binary64)
  | string (s : String)
  | sequence
  | map
  /-- A variant of a union that is given by its name alone. -/
  | unitVariant
  deriving DecidableEq

/-- How a message names what was met. -/
def Found.text : Found → String
  | .null => "null"
  | .boolean b => "boolean `" ++ toString b ++ "`"
  | .integer i => "integer `" ++ toString i ++ "`"
  | .real x => "floating point `" ++ String.ofList x.text ++ "`"
  | .string s => "string " ++ String.ofList (Text.quote s)
  | .sequence => "sequence"
  | .map => "map"
  | .unitVariant => "unit variant"

/-- What a tree is found to be. -/
def Json.found : Json → Found
  | .null => .null
  | .boolean b => .boolean b
  | .number (.integer i) => .integer i
  | .number (.real x) => .real x
  | .string s => .string s
  | .array _ => .sequence
  | .object _ => .map

/-- Why JSON is not what was expected. -/
inductive Mismatch
  /-- It is of another type. -/
  | wrongType (found : Found) (expected : String)
  /-- It is of the right type, but cannot have this value. -/
  | wrongValue (found : Found) (expected : String)
  /-- It has another length. -/
  | wrongLength (length : Nat) (expected : String)
  /-- A field that must be there is not. -/
  | missingField (name : String)
  /-- A field is there twice. -/
  | duplicateField (name : String)
  /-- The name is none of the names of the variants. -/
  | unknownVariant (name : String) (known : List String)
  /-- It was read, but what it says cannot be, for the given reason. -/
  | refused (reason : String)
  deriving DecidableEq

/-- A name in a message. -/
def ticked (name : String) : String := "`" ++ name ++ "`"

/-- A choice of names in a message. -/
def alternatives : List String → String
  | [] => "there are no variants"
  | [a] => "expected " ++ ticked a
  | [a, b] => "expected " ++ ticked a ++ " or " ++ ticked b
  | names => "expected one of " ++ ", ".intercalate (names.map ticked)

/-- The sentence that says what does not fit. -/
def Mismatch.message : Mismatch → String
  | .wrongType found expected => "invalid type: " ++ found.text ++ ", expected " ++ expected
  | .wrongValue found expected => "invalid value: " ++ found.text ++ ", expected " ++ expected
  | .wrongLength n expected => "invalid length " ++ toString n ++ ", expected " ++ expected
  | .missingField name => "missing field " ++ ticked name
  | .duplicateField name => "duplicate field " ++ ticked name
  | .unknownVariant name known => "unknown variant " ++ ticked name ++ ", " ++ alternatives known
  | .refused reason => reason

end Dependence
