/-!
# Listings of numbers

The two ways in which a list of numbers is written in messages and in printed functions.

* `commaList` — `2,3,4`, for the dimensions of a tensor.
* `bracketList` — `[2, -1]`, for a list as its owner wrote it.
-/

namespace GraphLowering.Text

/-- Items divided by a comma: `2,3,4`. -/
def commaList {α : Type} [ToString α] (items : List α) : String :=
  ",".intercalate (items.map toString)

/-- Items between square brackets, divided by a comma and a blank: `[2, -1]`. -/
def bracketList {α : Type} [ToString α] (items : List α) : String :=
  "[" ++ ", ".intercalate (items.map toString) ++ "]"

end GraphLowering.Text
