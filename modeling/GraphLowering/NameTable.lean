/-!
# Name tables

Values kept under names. A later entry for a name hides the earlier ones, so a table behaves as a
partial function on names: `get?_insert` says what one insertion does to it.
-/

namespace GraphLowering

/-- Values under names, the newest entry first. -/
structure NameTable (α : Type) where
  entries : List (String × α)
  deriving DecidableEq

namespace NameTable

variable {α : Type}

/-- The table without entries. -/
def empty : NameTable α := ⟨[]⟩

instance : Inhabited (NameTable α) := ⟨empty⟩

/-- The value under a name. -/
def get? (table : NameTable α) (name : String) : Option α :=
  table.entries.lookup name

/-- Whether a name has a value. -/
def contains (table : NameTable α) (name : String) : Bool :=
  (table.get? name).isSome

/-- Sets the value under a name. -/
def insert (table : NameTable α) (name : String) (value : α) : NameTable α :=
  ⟨(name, value) :: table.entries⟩

@[simp] theorem get?_empty (name : String) : (empty : NameTable α).get? name = none := rfl

/-- An insertion changes the value under its own name only. -/
@[simp] theorem get?_insert (table : NameTable α) (name other : String) (value : α) :
    (table.insert name value).get? other =
      if other = name then some value else table.get? other := by
  by_cases h : other = name
  · simp [get?, insert, h]
  · have hb : (other == name) = false := by simpa using h
    simp [get?, insert, List.lookup_cons, hb, h]

end NameTable

end GraphLowering
