/-!
# Sizes in the range of a signed word

Sizes, offsets and alignments are integers, and a program may only use those
that a signed 64-bit word can hold.  The operations here answer `none` when the
exact result falls outside that range, so a size that is too large is noticed
where it arises.
-/

namespace MiniC
namespace Extent

/-- The largest value of a signed 64-bit word. -/
def maxValue : Int := 9223372036854775807

/-- The smallest value of a signed 64-bit word. -/
def minValue : Int := -9223372036854775808

/-- The integers that a signed 64-bit word can hold. -/
def InRange (n : Int) : Prop := minValue ≤ n ∧ n ≤ maxValue

instance (n : Int) : Decidable (InRange n) :=
  inferInstanceAs (Decidable (minValue ≤ n ∧ n ≤ maxValue))

/-- The largest value of a signed 32-bit word. -/
def maxInt32 : Int := 2147483647

/-- The integers that a signed 32-bit word can hold. -/
def FitsInt32 (n : Int) : Prop := -2147483648 ≤ n ∧ n ≤ maxInt32

instance (n : Int) : Decidable (FitsInt32 n) :=
  inferInstanceAs (Decidable (-2147483648 ≤ n ∧ n ≤ maxInt32))

/-- The integer itself, when it is in range. -/
def check? (n : Int) : Option Int :=
  if InRange n then some n else none

/-- The sum of two sizes, when it is in range. -/
def add? (left right : Int) : Option Int := check? (left + right)

/-- The product of two sizes, when it is in range. -/
def mul? (left right : Int) : Option Int := check? (left * right)

/-- Round a size up to a multiple of an alignment.  The only intermediate value
that can leave the range is `size + align - 1`.  The quotient is cut toward
zero, which for a negative size may give a multiple above the least one. -/
def alignUp? (size align : Int) : Option Int :=
  (add? size (align - 1)).map fun bound => bound.tdiv align * align

theorem check?_eq_some_iff {n m : Int} :
    check? n = some m ↔ InRange n ∧ n = m := by
  unfold check?
  split <;> simp_all

theorem check?_eq_none_iff {n : Int} :
    check? n = none ↔ ¬ InRange n := by
  unfold check?
  split <;> simp_all

end Extent
end MiniC
