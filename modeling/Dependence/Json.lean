import Dependence.Binary64

/-!
# JSON trees

A JSON text as a tree. An object keeps its members in the order in which they were written, and one
name may occur more than once; `Json.fields` is what a reader sees of it, where the last member of a
name counts and names are in ascending order.

A number is an integer only if it is written without a point and an exponent, is not `-0`, and fits
into 64 bits, with or without a sign; any other number is a floating-point number.
-/

namespace Dependence

/-- The numbers of JSON. -/
inductive Number
  | integer (i : Int)
  | real (x : Binary64)
  deriving DecidableEq

/-- A JSON tree. -/
inductive Json
  | null
  | boolean (b : Bool)
  | number (n : Number)
  | string (s : String)
  | array (items : List Json)
  | object (members : List (String × Json))

namespace Json

/-- Puts a member in its place among members that are in ascending order of names. A member of the
same name is replaced. -/
def insertField (name : String) (value : Json) : List (String × Json) → List (String × Json)
  | [] => [(name, value)]
  | (other, old) :: rest =>
    if name = other then (name, value) :: rest
    else if name < other then (name, value) :: (other, old) :: rest
    else (other, old) :: insertField name value rest

/-- The members of an object as a reader sees them: in ascending order of names, and of several
members of one name the last. -/
def fields (members : List (String × Json)) : List (String × Json) :=
  members.foldl (fun seen (name, value) => insertField name value seen) []

/-- The member of a given name that a reader sees. -/
def field? (members : List (String × Json)) (name : String) : Option Json :=
  (members.reverse.find? fun member => member.1 = name).map Prod.snd

end Json

end Dependence
