/-!
# Bracketed lists

Dimensions stand in messages as a list in square brackets, separated by a comma
and a blank: `[2, 3]`, and `[]` for no dimension at all.
-/

namespace DiffTensor.Text

/-- The items in square brackets. -/
def brackets (items : List String) : String := "[" ++ ", ".intercalate items ++ "]"

/-- The dimensions of a shape held by the library. -/
def naturals (dims : List Nat) : String := brackets (dims.map Nat.repr)

/-- A whole number in decimal notation, with a minus sign if it is negative. -/
def integer : Int → String
  | .ofNat n => n.repr
  | .negSucc n => "-" ++ (n + 1).repr

/-- The dimensions of a shape as the host sees it. -/
def integers (dims : List Int) : String := brackets (dims.map integer)

end DiffTensor.Text
