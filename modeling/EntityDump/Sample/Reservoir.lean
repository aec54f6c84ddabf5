/-!
# Reservoir sampling

A sample of a fixed size out of a stream of unknown length. As long as there is room every item is taken;
after that the draw for an item names a slot, and the item goes into that slot if the reservoir has it. The draws
are given from outside. `size_offer` says how the size grows.
-/

namespace EntityDump

/-- A draw for each item of a stream: after `seen` items a number up to `seen`. -/
abbrev Draws := (seen : Nat) → Fin (seen + 1)

/-- The items drawn so far. -/
structure Reservoir (α : Type) where
  /-- The most items. -/
  capacity : Nat
  items : Array α := #[]
  /-- The number of items offered. -/
  seen : Nat := 0

namespace Reservoir

variable {α : Type}

/-- Offers an item. -/
def offer (draws : Draws) (r : Reservoir α) (item : α) : Reservoir α :=
  { r with
    items :=
      if r.items.size < r.capacity then r.items.push item
      else r.items.setIfInBounds (draws r.seen) item
    seen := r.seen + 1 }

/-- The reservoir after a whole stream. -/
def ofStream (capacity : Nat) (draws : Draws) (stream : List α) : Reservoir α :=
  stream.foldl (offer draws) { capacity := capacity }

/-- An item is added while there is room, and afterwards the size stays. -/
theorem size_offer (draws : Draws) (r : Reservoir α) (item : α) :
    (r.offer draws item).items.size =
      if r.items.size < r.capacity then r.items.size + 1 else r.items.size := by
  unfold offer
  by_cases h : r.items.size < r.capacity <;> simp [h]

end Reservoir

/-! ### Draws from a seed -/

namespace Draws

/-- Mixes the bits of a word. -/
def mix (x : UInt64) : UInt64 :=
  let x := (x ^^^ (x >>> 30)) * 0xbf58476d1ce4e5b9
  let x := (x ^^^ (x >>> 27)) * 0x94d049bb133111eb
  x ^^^ (x >>> 31)

/-- Draws that a seed fixes: the words of an even walk from the seed, mixed and reduced to the range. -/
def ofSeed (seed : UInt64) : Draws := fun seen =>
  Fin.ofNat (seen + 1) (mix (seed + UInt64.ofNat (seen + 1) * 0x9e3779b97f4a7c15)).toNat

end Draws

end EntityDump
