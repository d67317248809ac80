import Mathlib.Algebra.Ring.Int.Defs
import Mathlib.Algebra.Ring.Nat
import MiniC.Width

/-!
# Memory

Memory gives every 64-bit address a byte.  Numbers occupy consecutive bytes, the lowest
byte first, and addresses wrap around at the end of memory.

A stretch of memory is an address with a number of bytes, and `Covers` says which bytes
belong to it.  What is written outside a stretch does not change what is read from it.
-/

namespace MiniC
namespace Asm

/-- Machine words and addresses. -/
abbrev Word := BitVec 64

/-- The byte at each address. -/
abbrev Memory := Word -> BitVec 8

/-- Whether a byte belongs to the stretch that begins at an address and has a number of
bytes. -/
def Covers (start : Word) (count : Nat) (place : Word) : Prop :=
  (place - start).toNat < count

instance (start : Word) (count : Nat) (place : Word) :
    Decidable (Covers start count place) :=
  inferInstanceAs (Decidable (_ < _))

/-- Stretches without a byte in common. -/
def Apart (first : Word) (count : Nat) (second : Word) (other : Nat) : Prop :=
  ∀ place, Covers first count place -> ¬Covers second other place

namespace Memory

/-- The number in consecutive bytes. -/
def read (memory : Memory) (start : Word) : Nat -> Nat
  | 0 => 0
  | count + 1 => (memory start).toNat + 256 * read memory (start + 1) count

/-- Memory with the low bytes of a word written to a stretch. -/
def write (memory : Memory) (start : Word) (count : Nat) (value : Word) : Memory :=
  fun place =>
    if Covers start count place then
      BitVec.ofNat 8 (value.toNat / 256 ^ (place - start).toNat)
    else memory place

/-- Memory with bytes copied one after the other, the lowest first. -/
def copy (memory : Memory) (target source : Word) : Nat -> Memory
  | 0 => memory
  | count + 1 => fun place =>
      if place = target + .ofNat 64 count then
        copy memory target source count (source + .ofNat 64 count)
      else copy memory target source count place

/-- The signed number in consecutive bytes. -/
def signed (memory : Memory) (start : Word) (count : Nat) : Int :=
  Int.bmod (memory.read start count) (2 ^ (8 * count))

end Memory

/-! ## Stretches -/

section Covers

variable {start place : Word} {count : Nat}

/-- A stretch that does not reach the end of memory, in terms of numbers. -/
theorem covers_iff (inside : start.toNat + count ≤ 2 ^ 64) :
    Covers start count place ↔
      start.toNat ≤ place.toNat ∧ place.toNat < start.toNat + count := by
  unfold Covers
  have placeBound := place.isLt
  have startBound := start.isLt
  rw [BitVec.toNat_sub]
  omega

theorem covers_step {index : Nat} (below : index < count) (small : count ≤ 2 ^ 64) :
    Covers start count (start + BitVec.ofNat 64 index) := by
  unfold Covers
  have distance : start + BitVec.ofNat 64 index - start = BitVec.ofNat 64 index := by
    rw [BitVec.add_comm, BitVec.add_sub_cancel]
  rw [distance, BitVec.toNat_ofNat]
  omega

end Covers

/-! ## Parts of a stretch of memory -/

section Parts

variable {address place : Word} {offset other size : Int}

/-- A part of a stretch holds the bytes at some distance from the start. -/
theorem covers_offset {count : Nat} (nonneg : 0 ≤ offset) (inside : offset + count ≤ size)
    (small : size < 2 ^ 64) :
    Covers (address + .ofInt 64 offset) count place ↔
      offset ≤ (place - address).toNat ∧ (place - address).toNat < offset + count := by
  have start : ((BitVec.ofInt 64 offset).toNat : Int) = offset := by
    rw [BitVec.toNat_ofInt]
    omega
  have distance :
      place - (address + .ofInt 64 offset) = place - address - .ofInt 64 offset := by
    simp only [BitVec.sub_eq_add_neg, BitVec.neg_add, BitVec.add_assoc]
  have part : Covers (address + .ofInt 64 offset) count place ↔
      Covers (.ofInt 64 offset) count (place - address) := by
    unfold Covers
    rw [distance]
  rw [part, covers_iff (by omega)]
  omega

theorem covers_of_offset {count : Int} (nonneg : 0 ≤ offset)
    (inside : offset + count ≤ size) (small : size < 2 ^ 64)
    (covered : Covers (address + .ofInt 64 offset) count.toNat place) :
    Covers address size.toNat place := by
  have some : 0 < count.toNat := Nat.zero_lt_of_lt covered
  have within :=
    (covers_offset nonneg (by omega : offset + count.toNat ≤ size) small).mp covered
  unfold Covers
  omega

/-- Parts of a stretch that do not overlap are apart. -/
theorem apart_of_offsets {count bytes : Int} (nonneg : 0 ≤ offset)
    (inside : offset + count ≤ size) (otherNonneg : 0 ≤ other)
    (otherInside : other + bytes ≤ size) (small : size < 2 ^ 64)
    (disjoint : offset + count ≤ other ∨ other + bytes ≤ offset) :
    Apart (address + .ofInt 64 offset) count.toNat (address + .ofInt 64 other)
      bytes.toNat := by
  intro place left right
  have some : 0 < count.toNat := Nat.zero_lt_of_lt left
  have others : 0 < bytes.toNat := Nat.zero_lt_of_lt right
  have within :=
    (covers_offset nonneg (by omega : offset + count.toNat ≤ size) small).mp left
  have beside :=
    (covers_offset otherNonneg (by omega : other + bytes.toNat ≤ size) small).mp right
  omega

end Parts

namespace Memory

variable {memory other : Memory} {start : Word} {count : Nat}

/-! ## Reading -/

/-- What is read depends only on the bytes of the stretch. -/
theorem read_congr
    (small : count ≤ 2 ^ 64)
    (same : ∀ place, Covers start count place -> memory place = other place) :
    memory.read start count = other.read start count := by
  have bytes : ∀ index, index < count ->
      memory (start + BitVec.ofNat 64 index) = other (start + BitVec.ofNat 64 index) :=
    fun index below => same _ (covers_step below small)
  clear same small
  induction count generalizing start with
  | zero => rfl
  | succ count hypothesis =>
      have head := bytes 0 (Nat.zero_lt_succ count)
      rw [BitVec.add_zero] at head
      have tail : memory.read (start + 1) count = other.read (start + 1) count := by
        apply hypothesis
        intro index below
        have next := bytes (index + 1) (Nat.succ_lt_succ below)
        rw [BitVec.ofNat_add, BitVec.add_comm (BitVec.ofNat 64 index), ← BitVec.add_assoc]
          at next
        exact next
      rw [read, read, head, tail]

theorem signed_congr
    (small : count ≤ 2 ^ 64)
    (same : ∀ place, Covers start count place -> memory place = other place) :
    memory.signed start count = other.signed start count := by
  unfold signed
  rw [read_congr small same]

/-- Bytes that are the digits of a number spell its remainder. -/
theorem read_of_digits
    {value : Nat}
    (digits : ∀ index, index < count ->
      memory (start + BitVec.ofNat 64 index) = BitVec.ofNat 8 (value / 256 ^ index)) :
    memory.read start count = value % 256 ^ count := by
  induction count generalizing start value with
  | zero => rw [read, Nat.pow_zero, Nat.mod_one]
  | succ count hypothesis =>
      have head := digits 0 (Nat.zero_lt_succ count)
      rw [BitVec.add_zero, Nat.pow_zero, Nat.div_one] at head
      have tail : memory.read (start + 1) count = value / 256 % 256 ^ count := by
        apply hypothesis
        intro index below
        have next := digits (index + 1) (Nat.succ_lt_succ below)
        rw [BitVec.ofNat_add, BitVec.add_comm (BitVec.ofNat 64 index), ← BitVec.add_assoc,
          Nat.pow_succ', ← Nat.div_div_eq_div_mul] at next
        exact next
      have split : value % (256 * 256 ^ count) =
          value % 256 + 256 * (value / 256 % 256 ^ count) := Nat.mod_mul
      rw [read, head, tail, BitVec.toNat_ofNat, ← split, ← Nat.pow_succ']

/-! ## Writing -/

theorem write_of_not_covers {place : Word} {value : Word}
    (outside : ¬Covers start count place) :
    memory.write start count value place = memory place :=
  if_neg outside

/-- What is read from a stretch just written is the low part of the word. -/
theorem read_write (small : count ≤ 8) (value : Word) :
    (memory.write start count value).read start count = value.toNat % 256 ^ count := by
  apply read_of_digits
  intro index below
  have covered : Covers start count (start + BitVec.ofNat 64 index) :=
    covers_step below (by omega)
  have distance : start + BitVec.ofNat 64 index - start = BitVec.ofNat 64 index := by
    rw [BitVec.add_comm, BitVec.add_sub_cancel]
  rw [write, if_pos covered, distance, BitVec.toNat_ofNat, Nat.mod_eq_of_lt (by omega)]

/-- A word just written is read again. -/
theorem read_write_word (value : Word) :
    BitVec.ofNat 64 ((memory.write start 8 value).read start 8) = value := by
  have small : value.toNat < 256 ^ 8 := value.isLt
  rw [read_write (Nat.le_refl 8), Nat.mod_eq_of_lt small, BitVec.ofNat_toNat,
    BitVec.setWidth_eq]

/-- The signed number in a stretch just written. -/
theorem signed_write (small : count ≤ 8) (value : Word) :
    (memory.write start count value).signed start count =
      Int.bmod value.toInt (2 ^ (8 * count)) := by
  have power : 256 ^ count = 2 ^ (8 * count) := by rw [Nat.pow_mul]
  have divides : 2 ^ (8 * count) ∣ 2 ^ 64 := Nat.pow_dvd_pow 2 (by omega)
  unfold signed
  rw [read_write small, power, Int.natCast_emod, Int.emod_bmod,
    BitVec.toInt_eq_toNat_bmod, Int.bmod_bmod_of_dvd divides]

theorem read_lt (memory : Memory) (start : Word) (count : Nat) :
    memory.read start count < 256 ^ count := by
  induction count generalizing start with
  | zero => exact Nat.one_pos
  | succ count hypothesis =>
      have low := (memory start).isLt
      have high := hypothesis (start + 1)
      rw [read, Nat.pow_succ']
      omega

/-- The signed number in a stretch says which bytes are there. -/
theorem read_of_signed (small : count ≤ 8) {value : Word}
    (same : memory.signed start count = value.toInt.bmod (2 ^ (8 * count))) :
    memory.read start count = value.toNat % 256 ^ count := by
  have power : 256 ^ count = 2 ^ (8 * count) := by rw [Nat.pow_mul]
  have divides : 2 ^ (8 * count) ∣ 2 ^ 64 := Nat.pow_dvd_pow 2 (by omega)
  have below := read_lt memory start count
  rw [signed, BitVec.toInt_eq_toNat_bmod, Int.bmod_bmod_of_dvd divides] at same
  have remainders := congrArg (· % ((2 ^ (8 * count) : Nat) : Int)) same
  simp only [Int.bmod_emod] at remainders
  rw [power] at below ⊢
  rw [← Nat.mod_eq_of_lt below]
  exact_mod_cast remainders

/-- Writing to a stretch apart leaves what is read. -/
theorem read_write_of_apart
    {target : Word}
    {bytes : Nat}
    {value : Word}
    (small : count ≤ 2 ^ 64)
    (apart : Apart start count target bytes) :
    (memory.write target bytes value).read start count = memory.read start count :=
  read_congr small fun place covered => write_of_not_covers (apart place covered)

theorem signed_write_of_apart
    {target : Word}
    {bytes : Nat}
    {value : Word}
    (small : count ≤ 2 ^ 64)
    (apart : Apart start count target bytes) :
    (memory.write target bytes value).signed start count = memory.signed start count :=
  signed_congr small fun place covered => write_of_not_covers (apart place covered)

/-! ## Copying -/

/-- A byte that is written alone. -/
theorem write_byte (value : Word) (place : Word) :
    memory.write start 1 value place =
      if place = start then value.setWidth 8 else memory place := by
  unfold write
  by_cases own : place = start
  · have covered : Covers start 1 place := by simp [Covers, own]
    rw [if_pos covered, if_pos own, own, BitVec.sub_self]
    apply BitVec.eq_of_toNat_eq
    simp
  · have outside : ¬Covers start 1 place := by
      intro covered
      unfold Covers at covered
      apply own
      have zero : place - start = 0#64 := BitVec.eq_of_toNat_eq (by simpa using covered)
      rw [← BitVec.sub_add_cancel place start, zero, BitVec.zero_add]
    rw [if_neg outside, if_neg own]

section Copy

variable {target source place : Word}

/-- A copy leaves memory outside its target. -/
theorem copy_of_not_covers (small : count ≤ 2 ^ 64)
    (outside : ¬Covers target count place) :
    memory.copy target source count place = memory place := by
  induction count with
  | zero => rfl
  | succ count hypothesis =>
      have other : place ≠ target + .ofNat 64 count := by
        rintro rfl
        exact outside (covers_step (Nat.lt_succ_self count) small)
      simp only [copy, if_neg other]
      exact hypothesis (by omega) fun covered => outside (Nat.lt_succ_of_lt covered)

/-- A copy leaves in its target the bytes of the source, unless the two overlap in
part. -/
theorem copy_of_apart (small : count ≤ 2 ^ 64)
    (apart : source = target ∨ Apart source count target count)
    {index : Nat} (below : index < count) :
    memory.copy target source count (target + .ofNat 64 index) =
      memory (source + .ofNat 64 index) := by
  -- Bytes that are still to be copied are as they were.
  have kept {position : Nat} (inside : position < count) :
      ∀ done, done ≤ position ->
        memory.copy target source done (source + .ofNat 64 position) =
          memory (source + .ofNat 64 position) := by
    intro done early
    apply copy_of_not_covers (by omega)
    rcases apart with rfl | apart
    · unfold Covers
      rw [BitVec.add_comm, BitVec.add_sub_cancel, BitVec.toNat_ofNat]
      omega
    · intro covered
      exact apart _ (covers_step inside small) (Nat.lt_of_lt_of_le covered (by omega))
  suffices copied : ∀ done, done ≤ count -> index < done ->
      memory.copy target source done (target + .ofNat 64 index) =
        memory (source + .ofNat 64 index) from copied count (Nat.le_refl _) below
  intro done
  induction done with
  | zero => exact fun _ none => nomatch none
  | succ done hypothesis =>
      intro inside early
      simp only [copy]
      by_cases last : index = done
      · rw [if_pos (by rw [last]), ← last, kept below index (Nat.le_refl _)]
      · have other : target + .ofNat 64 index ≠ target + .ofNat 64 done := by
          intro same
          have indices := (BitVec.add_right_inj target).mp same
          have numbers := congrArg BitVec.toNat indices
          rw [BitVec.toNat_ofNat, BitVec.toNat_ofNat] at numbers
          omega
        rw [if_neg other]
        exact hypothesis (by omega) (by omega)

end Copy

end Memory
end Asm
end MiniC
