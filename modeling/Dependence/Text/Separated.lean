/-!
# Separated texts

Several texts one after the other with the same text between every two of them.
-/

namespace Dependence.Text

/-- The given texts with a separator between every two of them. -/
def separated (separator : List Char) : List (List Char) → List Char
  | [] => []
  | [t] => t
  | t :: ts => t ++ separator ++ separated separator ts

end Dependence.Text
