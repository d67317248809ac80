import MiniC.Proofs.Program.Composition

/-!
# Entries in another order

Two blocks of a table stand one behind the other.  `Blocks.swap` says where their entries
stand if the second block comes first, and `Blocks.shift` where an entry stands behind the
first block that would stand in its place.  An entry of the second block is shifted back
by the exchange.
-/

namespace MiniC

/-- Two blocks of a table: where the first begins, and the numbers of their entries. -/
structure Blocks where
  low : Nat
  left : Nat
  right : Nat

namespace Blocks

variable (b : Blocks) {index n : Nat}

/-- Where an entry stands if the second block comes first. -/
def swap (index : Nat) : Nat :=
  if index < b.low ∨ b.low + b.left + b.right ≤ index then index
  else if index < b.low + b.left then index + b.right
  else index - b.left

/-- Where an entry stands if the first block comes in front of it. -/
def shift (index : Nat) : Nat :=
  if index < b.low then index else index + b.left

/-- No two entries are exchanged with the same one. -/
theorem swap_injective : Function.Injective b.swap := by
  intro index other same
  unfold swap at same
  grind

/-- No two entries are moved to the same place. -/
theorem shift_injective : Function.Injective b.shift := by
  intro index other same
  unfold shift at same
  grind

/-- Entries outside of the two blocks stay where they are. -/
theorem swap_outside (outside : index < b.low ∨ b.low + b.left + b.right ≤ index) :
    b.swap index = index :=
  if_pos outside

/-- The first block comes behind the second. -/
theorem swap_first (inside : b.low + n < b.low + b.left) :
    b.swap (b.low + n) = b.low + b.right + n := by
  unfold swap
  rw [if_neg (by omega), if_pos inside]
  omega

theorem shift_below (below : index < b.low) : b.shift index = index := if_pos below

theorem shift_behind : b.shift (b.low + n) = b.low + b.left + n := by
  unfold shift
  rw [if_neg (by omega)]
  omega

/-- An entry of the second block is shifted back. -/
theorem swap_shift (below : index < b.low + b.right) :
    b.swap (b.shift index) = index := by
  unfold swap shift
  grind

end Blocks

namespace Renaming

variable (types nodes : Blocks) (primitive : TypeTable.initial.entries.size ≤ types.low)

include primitive in
/-- References to types that are given by their indices. -/
def ofIndices (ty node : Nat -> Nat) (tyInjective : Function.Injective ty)
    (nodeInjective : Function.Injective node)
    (fixed : ∀ index < types.low, ty index = index)
    (token : Nat -> Nat) : Renaming where
  ty := fun id => ⟨ty id.index⟩
  node := fun id => ⟨node id.index⟩
  token := token
  ty_injective := fun _ _ same =>
    congrArg TyId.mk (tyInjective (congrArg TyId.index same))
  node_injective := fun _ _ same =>
    congrArg NodeId.mk (nodeInjective (congrArg NodeId.index same))
  ty_primitive := fun id known =>
    congrArg TyId.mk (fixed id.index (Nat.lt_of_lt_of_le known primitive))

/-- The second block of types and the second block of nodes come first. -/
def exchange (token : Nat -> Nat) : Renaming :=
  .ofIndices types primitive types.swap nodes.swap types.swap_injective
    nodes.swap_injective (fun _ below => types.swap_outside (.inl below)) token

/-- The first blocks come in front. -/
def further : Renaming :=
  .ofIndices types primitive types.shift nodes.shift types.shift_injective
    nodes.shift_injective (fun _ below => types.shift_below below) id

end Renaming

end MiniC
