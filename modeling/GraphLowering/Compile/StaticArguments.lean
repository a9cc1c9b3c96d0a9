import GraphLowering.Rule.Table

/-!
# Static arguments

The arguments whose value, and not only their shape, has to be known while lowering: those with a
data edge into an input slot on which the consumer's rule needs a value. The edges alone decide
this.

* `position` — the position of an argument or a result among its kind.
* `feedsStaticSlot` — whether a node feeds a slot that needs a value.
* `staticFlags` — a flag for each argument position.
-/

namespace GraphLowering

open Source

/-- The position that attribute `index` of an argument or a result gives. -/
def position (v : Node) : Except Error Nat := do
  let index ← v.int "index"
  if index < 0 then
    throw (.invalid (.negativeIndex v.name index))
  return index.toNat

/-- Whether a data edge leads into an input slot that needs a value. Sentinels need none. -/
def entersStaticSlot (g : Graph) (e : Edge) : Bool :=
  match e.kind, g.node? e.dst with
  | .data _ slot, some consumer => !consumer.isSentinel && needsValue consumer slot
  | _, _ => false

/-- Whether a node feeds an input slot that needs a value. -/
def feedsStaticSlot (g : Graph) (v : Node) : Bool :=
  (g.dataOutEdges v).any (entersStaticSlot g)

/-- An argument with its position, which has to be below the number of arguments. -/
def positioned (g : Graph) (count : Nat) (i : Nat) : Except Error (Node × Nat) := do
  let v ← g.node i
  let index ← position v
  if count ≤ index then
    throw (.invalid (.argumentIndex v.name index count))
  return (v, index)

/-- A flag for each position up to the greatest one among the listed arguments. -/
def staticFlags (g : Graph) (params : List Nat) : Except Error (List Bool) := do
  let arguments ← params.mapM (positioned g params.length)
  let length := arguments.foldl (fun n (_, index) => max n (index + 1)) 0
  return arguments.foldl
    (fun flags (v, index) => if feedsStaticSlot g v then flags.set index true else flags)
    (List.replicate length false)

end GraphLowering
