import Mathlib.Algebra.Order.Ring.Int
import Mathlib.Order.Bounds.Basic
import MiniC.Proofs.Grammar.Runs
import MiniC.Proofs.Ty.Consistency

/-!
# Layouts are exact up to the limit

A layout is computed step by step, and every step notices when it leaves the range of a
signed word.  Over unbounded integers the layout of members has a plain description: a
struct places each member at the next multiple of its alignment, a union places all of
them at zero, and the whole is a multiple of the widest alignment.

The two agree.  The range ends just below a multiple of every power of two, so that the
sum on the way to a multiple leaves the range only if the multiple does; and no member
ends behind the whole.  So a layout is rejected exactly when its size is out of range.
-/

namespace MiniC

/-! ## Rounding up to a power of two -/

namespace Extent

/-- An alignment that a type can have: a power of two in the range of a signed word. -/
def IsAlignment (align : Int) :
    Prop := ∃ exponent : Nat, exponent < 63 ∧ align = 2 ^ exponent

variable {size align : Int}

theorem IsAlignment.pos (alignment : IsAlignment align) : 0 < align := by
  obtain ⟨exponent, -, rfl⟩ := alignment
  exact Int.pow_pos (by decide)

theorem IsAlignment.one : IsAlignment 1 := ⟨0, by decide, rfl⟩

theorem IsAlignment.max {other : Int} (first : IsAlignment align)
    (second : IsAlignment other) :
    IsAlignment (max align other) := by
  rcases Int.le_total align other with below | above
  · rwa [Int.max_eq_right below]
  · rwa [Int.max_eq_left above]

/-- Behind the range lies a multiple of every alignment. -/
theorem IsAlignment.exists_mul_eq (alignment : IsAlignment align) :
    ∃ count, maxValue + 1 = count * align := by
  obtain ⟨exponent, small, rfl⟩ := alignment
  refine ⟨2 ^ (63 - exponent), ?_⟩
  rw [← Int.pow_add, Nat.sub_add_cancel (Nat.le_of_lt small)]
  decide

/-- What is rounded up leaves the range exactly when the sum on the way does. -/
theorem roundUp_le_maxValue_iff (alignment : IsAlignment align) :
    roundUp size align ≤ maxValue ↔ size + (align - 1) ≤ maxValue := by
  obtain ⟨count, limit⟩ := alignment.exists_mul_eq
  unfold roundUp
  rw [← Int.lt_add_one_iff, limit, Int.mul_lt_mul_right alignment.pos,
    Int.ediv_lt_iff_lt_mul alignment.pos, ← limit, Int.lt_add_one_iff]

/-- A size is rounded up if the result is in range, and fails otherwise. -/
theorem alignUp?_exact (nonneg : 0 ≤ size) (alignment : IsAlignment align) :
    alignUp? size align =
      if roundUp size align ≤ maxValue then some (roundUp size align) else none := by
  rw [alignUp?_eq nonneg alignment.pos]
  simp only [roundUp_le_maxValue_iff alignment]

/-- A sum of sizes fails exactly when it is too large. -/
theorem add?_exact {left right : Int} (nonneg : 0 ≤ left + right) :
    add? left right = if left + right ≤ maxValue then some (left + right) else none := by
  have low : minValue ≤ left + right := Int.le_trans (by decide) nonneg
  unfold add? check? InRange
  simp only [low, true_and]

/-- Rounding up gives the least multiple that is not below a size. -/
theorem isLeast_roundUp (positive : 0 < align) (size : Int) :
    IsLeast {place | align ∣ place ∧ size ≤ place} (roundUp size align) := by
  refine ⟨⟨Int.dvd_of_emod_eq_zero (roundUp_emod size align), le_roundUp size positive⟩,
    ?_⟩
  rintro place ⟨⟨count, rfl⟩, above⟩
  unfold roundUp
  rw [Int.mul_comm align count]
  refine Int.mul_le_mul_of_nonneg_right ?_ (Int.le_of_lt positive)
  refine Int.lt_add_one_iff.mp ((Int.ediv_lt_iff_lt_mul positive).mpr ?_)
  rw [Int.add_mul, Int.one_mul, Int.mul_comm count align]
  omega

end Extent

/-! ## Layouts over unbounded integers -/

namespace Form

/-- The layout of fields of the given types, however large. -/
def layout (form : Form) (fields : List Field) (tys : List Ty) : Layout where
  members := List.zipWith Field.placedAt fields (form.offsets tys)
  size := Extent.roundUp (form.extent tys) (alignment tys)
  align := alignment tys

/-- The widest of alignments is one of them or the one to begin with. -/
theorem isGreatest_alignment (tys : List Ty) (least : Int) :
    IsGreatest {align | align = least ∨ ∃ ty ∈ tys, ty.align = align}
      (tys.foldl (fun align ty => max align ty.align) least) := by
  induction tys generalizing least with
  | nil => simp [IsGreatest, upperBounds]
  | cons ty rest hypothesis =>
      obtain ⟨member, bound⟩ := hypothesis (max least ty.align)
      refine ⟨?_, ?_⟩
      · rcases member with first | ⟨other, listed, same⟩
        · rcases Int.le_total least ty.align with below | above
          · exact .inr ⟨ty, List.mem_cons_self,
              (first.trans (Int.max_eq_right below)).symm⟩
          · exact .inl (first.trans (Int.max_eq_left above))
        · exact .inr ⟨other, List.mem_cons_of_mem ty listed, same⟩
      · have first := bound (.inl rfl)
        rintro align (rfl | ⟨other, listed, rfl⟩)
        · exact Int.le_trans (Int.le_max_left _ _) first
        · rcases List.mem_cons.mp listed with rfl | later
          · exact Int.le_trans (Int.le_max_right _ _) first
          · exact bound (.inr ⟨other, later, rfl⟩)

theorem foldl_isAlignment {tys : List Ty}
    (alignments : ∀ ty ∈ tys, Extent.IsAlignment ty.align)
    {least : Int} (alignment : Extent.IsAlignment least) :
    Extent.IsAlignment (tys.foldl (fun align ty => max align ty.align) least) := by
  rcases (isGreatest_alignment tys least).1 with same | ⟨ty, listed, same⟩
  · rwa [same]
  · rw [← same]
    exact alignments ty listed

theorem le_structEnd {tys : List Ty} (sizes : ∀ ty ∈ tys, 0 ≤ ty.size ∧ 0 < ty.align)
    (offset : Int) : offset ≤ structEnd offset tys := by
  induction tys generalizing offset with
  | nil => exact Int.le_refl _
  | cons ty rest hypothesis =>
      obtain ⟨⟨sized, aligned⟩, others⟩ := List.forall_mem_cons.mp sizes
      have least := Extent.le_roundUp offset aligned
      have further := hypothesis others (Extent.roundUp offset ty.align + ty.size)
      exact Int.le_trans (by omega) further

/-- Members that follow each other from an end on: each starts at the next multiple of its
alignment. -/
def Follow (stop : Int) : List (Member × Ty) -> Prop
  | [] => True
  | (member, ty) :: rest =>
      IsLeast {place | ty.align ∣ place ∧ stop ≤ place} member.offset ∧
        Follow (member.offset + ty.size) rest

/-- What is left of a member without its place. -/
def unplaced (member : Member) : Field := ⟨member.name, member.ty, member.declToken⟩

variable {fields : List Field} {tys : List Ty}

theorem length_offsets (form : Form) (tys : List Ty) :
    (form.offsets tys).length = tys.length := by
  cases form with
  | struct =>
      have counted (offset : Int) : (structOffsets offset tys).length = tys.length := by
        induction tys generalizing offset with
        | nil => rfl
        | cons ty rest hypothesis => exact congrArg Nat.succ (hypothesis _)
      exact counted 0
  | union => exact List.length_map _

/-- Members are the fields that were placed. -/
theorem map_zipWith_placedAt {offsets : List Int}
    (same : offsets.length = fields.length) :
    (List.zipWith Field.placedAt fields offsets).map unplaced = fields := by
  induction fields generalizing offsets with
  | nil => rfl
  | cons field rest hypothesis =>
      cases offsets with
      | nil => cases same
      | cons offset offsets =>
          exact congrArg (field :: ·) (hypothesis (Nat.succ.inj same))

/-- Members are the same if they come from the same fields and are at the same places. -/
theorem eq_of_offsets_eq {one other : List Member}
    (fields : one.map unplaced = other.map unplaced)
    (places : one.map (·.offset) = other.map (·.offset)) : one = other := by
  induction one generalizing other with
  | nil => exact (List.map_eq_nil_iff.mp fields.symm).symm
  | cons member rest hypothesis =>
      cases other with
      | nil => cases fields
      | cons second others =>
          obtain ⟨field, otherFields⟩ := List.cons.inj fields
          obtain ⟨place, otherPlaces⟩ := List.cons.inj places
          obtain ⟨name, ty, token⟩ := Field.mk.inj field
          have equal : member = second := by
            cases member
            cases second
            simp_all
          rw [equal, hypothesis otherFields otherPlaces]

/-- Members that follow each other have their places. -/
theorem Follow.unique {one other : List Member}
    (fields : one.map unplaced = other.map unplaced)
    (same : one.length = tys.length)
    {stop : Int}
    (first : Follow stop (one.zip tys))
    (second : Follow stop (other.zip tys)) : one = other := by
  refine eq_of_offsets_eq fields ?_
  induction one generalizing other tys stop with
  | nil => rw [List.map_eq_nil_iff.mp fields.symm]
  | cons member rest hypothesis =>
      cases other with
      | nil => cases fields
      | cons another others =>
          cases tys with
          | nil => cases same
          | cons ty tys =>
              obtain ⟨here, rest⟩ := first
              obtain ⟨place, others⟩ := second
              have equal := here.unique place
              rw [equal] at rest
              exact congrArg₂ List.cons equal
                (hypothesis (List.cons.inj fields).2 (Nat.succ.inj same) rest others)

theorem follow_structOffsets (positive : ∀ ty ∈ tys, 0 < ty.align) (fields : List Field)
    (offset : Int) :
    Follow offset ((List.zipWith Field.placedAt fields (structOffsets offset tys)).zip
      tys) := by
  induction fields generalizing tys offset with
  | nil => exact trivial
  | cons field rest hypothesis =>
      cases tys with
      | nil => exact trivial
      | cons ty tys =>
          obtain ⟨aligned, others⟩ := List.forall_mem_cons.mp positive
          exact ⟨Extent.isLeast_roundUp aligned offset, hypothesis others _⟩

/-- A struct ends where the last of its members does. -/
theorem structEnd_le_iff
    (same : fields.length = tys.length)
    (sizes : ∀ ty ∈ tys, 0 ≤ ty.size ∧ 0 < ty.align)
    {offset bound : Int} :
    structEnd offset tys ≤ bound ↔ offset ≤ bound ∧
      ∀ entry ∈ (List.zipWith Field.placedAt fields (structOffsets offset tys)).zip tys,
        entry.1.offset + entry.2.size ≤ bound := by
  induction fields generalizing tys offset with
  | nil =>
      obtain rfl := List.length_eq_zero_iff.mp same.symm
      simp [structEnd]
  | cons field rest hypothesis =>
      cases tys with
      | nil => cases same
      | cons ty tys =>
          obtain ⟨⟨sized, aligned⟩, others⟩ := List.forall_mem_cons.mp sizes
          have start := Extent.le_roundUp offset aligned
          dsimp only [structEnd, structOffsets, List.zipWith_cons_cons,
            List.zip_cons_cons]
          rw [List.forall_mem_cons, hypothesis (Nat.succ.inj same) others]
          dsimp only [Field.placedAt]
          refine ⟨fun ⟨stop, rest⟩ => ⟨by omega, stop, rest⟩,
            fun ⟨_, stop, rest⟩ => ⟨stop, rest⟩⟩

/-- A union ends where the longest of its members does. -/
theorem unionEnd_le_iff (same : fields.length = tys.length) {largest bound : Int} :
    tys.foldl (fun size ty => max size ty.size) largest ≤ bound ↔ largest ≤ bound ∧
      ∀ entry ∈ (List.zipWith Field.placedAt fields (tys.map fun _ => 0)).zip tys,
        entry.1.offset + entry.2.size ≤ bound := by
  induction fields generalizing tys largest with
  | nil =>
      obtain rfl := List.length_eq_zero_iff.mp same.symm
      simp
  | cons field rest hypothesis =>
      cases tys with
      | nil => cases same
      | cons ty tys =>
          rw [List.foldl_cons, hypothesis (Nat.succ.inj same), Int.max_le, and_assoc,
            List.map_cons, List.zipWith_cons_cons, List.zip_cons_cons,
              List.forall_mem_cons]
          dsimp only [Field.placedAt]
          rw [Int.zero_add]

/-- The extent of members is where the last of them ends, or nothing. -/
theorem extent_le_iff
    (form : Form)
    (same : fields.length = tys.length)
    (sizes : ∀ ty ∈ tys, 0 ≤ ty.size ∧ 0 < ty.align)
    {bound : Int} :
    form.extent tys ≤ bound ↔ 0 ≤ bound ∧
      ∀ entry ∈ (form.layout fields tys).members.zip tys,
        entry.1.offset + entry.2.size ≤ bound := by
  cases form with
  | struct => exact structEnd_le_iff same sizes
  | union => exact unionEnd_le_iff same

end Form

namespace Layout

/-- A layout of fields of the given types as the rules describe it. -/
structure Exact (form : Form) (fields : List Field) (tys : List Ty) (layout : Layout) :
    Prop where
  /-- The members are the fields in their order. -/
  members : layout.members.map Form.unplaced = fields
  /-- Each member of a struct is at the least multiple of its alignment that is not below
  the end of the one before. -/
  struct : form = .struct -> Form.Follow 0 (layout.members.zip tys)
  /-- The members of a union are at zero. -/
  union : form = .union -> ∀ member ∈ layout.members, member.offset = 0
  /-- The alignment is the widest of one and those of the members. -/
  align : IsGreatest {align | align = 1 ∨ ∃ ty ∈ tys, ty.align = align} layout.align
  /-- The size is the least multiple of the alignment that is not below the end of a
  member. -/
  size : IsLeast {size | layout.align ∣ size ∧ 0 ≤ size ∧
    ∀ entry ∈ layout.members.zip tys, entry.1.offset + entry.2.size ≤ size} layout.size

/-- The layout over unbounded integers is as the rules describe it. -/
theorem exact_layout
    (form : Form)
    {fields : List Field}
    {tys : List Ty}
    (same : fields.length = tys.length)
    (sizes : ∀ ty ∈ tys, 0 ≤ ty.size ∧ 0 < ty.align) :
    Exact form fields tys (form.layout fields tys) where
  members := Form.map_zipWith_placedAt ((Form.length_offsets form tys).trans same.symm)
  struct := by
    rintro rfl
    exact Form.follow_structOffsets (fun ty listed => (sizes ty listed).2) fields 0
  union := by
    rintro rfl member listed
    obtain ⟨index, found⟩ := List.getElem?_of_mem listed
    obtain ⟨field, offset, -, zero, rfl⟩ := List.getElem?_zipWith_eq_some.mp found
    obtain ⟨ty, -, rfl⟩ := List.mem_map.mp (List.mem_of_getElem? zero)
    rfl
  align := Form.isGreatest_alignment tys 1
  size := by
    have positive : 0 < Form.alignment tys :=
      Int.lt_of_lt_of_le Int.one_pos ((Form.isGreatest_alignment tys 1).2 (.inl rfl))
    have least := Extent.isLeast_roundUp positive (form.extent tys)
    simp only [Form.extent_le_iff form same sizes] at least
    exact least

/-- The rules leave no choice. -/
theorem Exact.unique
    {form : Form}
    {fields : List Field}
    {tys : List Ty}
    (same : fields.length = tys.length)
    {one other : Layout}
    (first : one.Exact form fields tys)
    (second : other.Exact form fields tys) :
    one = other := by
  have unplaced := first.members.trans second.members.symm
  have members : one.members = other.members := by
    cases form with
    | struct =>
        refine Form.Follow.unique unplaced ?_ (first.struct rfl) (second.struct rfl)
        rw [← same, ← first.members, List.length_map]
    | union =>
        refine Form.eq_of_offsets_eq unplaced ?_
        rw [List.map_eq_replicate_iff.mpr (first.union rfl),
          List.map_eq_replicate_iff.mpr (second.union rfl)]
        simpa using congrArg List.length unplaced
  have align : one.align = other.align := first.align.unique second.align
  have size : one.size = other.size := by
    have least := first.size
    rw [members, align] at least
    exact least.unique second.size
  obtain ⟨_, _, _⟩ := one
  obtain ⟨_, _, _⟩ := other
  simp_all

/-- A size is rounded up if the result is in range, and fails otherwise. -/
theorem aligned_exact {size align : Int} (nonneg : 0 ≤ size)
    (alignment : Extent.IsAlignment align) :
    aligned size align =
      if Extent.roundUp size align ≤ Extent.maxValue then .ok (Extent.roundUp size align)
      else .error .sizeOverflow := by
  rw [aligned, if_pos alignment.pos, Extent.alignUp?_exact nonneg alignment]
  split <;> rfl

/-- A sum of sizes fails exactly when it is too large. -/
theorem sized_add_exact {left right : Int} (nonneg : 0 ≤ left + right) :
    sized (Extent.add? left right) =
      if left + right ≤ Extent.maxValue then .ok (left + right)
        else .error .sizeOverflow := by
  rw [Extent.add?_exact nonneg]
  split <;> rfl

end Layout

namespace TypeTable

variable {types : TypeTable} {fields : List Field} {tys : List Ty}

/-- Fields of a struct are placed as over unbounded integers, if the whole is in range. -/
theorem structFrom_exact
    (typed : fields.map (fun field => types.get? field.ty) = tys.map some)
    (placeable : ∀ ty ∈ tys, 0 ≤ ty.size ∧ Extent.IsAlignment ty.align)
    {offset align : Int}
    (nonneg : 0 ≤ offset)
    (alignment : Extent.IsAlignment align) :
    types.structFrom fields offset align =
      let widest := tys.foldl (fun align ty => max align ty.align) align
      let size := Extent.roundUp (Form.structEnd offset tys) widest
      if size ≤ Extent.maxValue then
        .ok ⟨List.zipWith Field.placedAt fields (Form.structOffsets offset tys), size,
          widest⟩
      else .error .sizeOverflow := by
  induction fields generalizing tys offset align with
  | nil =>
      obtain rfl := List.map_eq_nil_iff.mp typed.symm
      rw [structFrom, Layout.aligned_exact nonneg alignment]
      dsimp only [List.foldl_nil, Form.structEnd, List.zipWith_nil_left]
      split <;> rfl
  | cons field rest hypothesis =>
      cases tys with
      | nil => cases typed
      | cons ty tys =>
          obtain ⟨head, tail⟩ := List.cons.inj typed
          obtain ⟨⟨sized, aligned⟩, others⟩ := List.forall_mem_cons.mp placeable
          have start := Extent.le_roundUp offset aligned.pos
          have widest := Form.foldl_isAlignment
            (fun other listed => (others other listed).2) (alignment.max aligned)
          have positive (other : Ty) (listed : other ∈ tys) :
              0 ≤ other.size ∧ 0 < other.align :=
            ⟨(others other listed).1, (others other listed).2.pos⟩
          -- What follows a member only adds to its end.
          have further :=
            Form.le_structEnd positive (Extent.roundUp offset ty.align + ty.size)
          have whole := Extent.le_roundUp
            (Form.structEnd (Extent.roundUp offset ty.align + ty.size) tys) widest.pos
          rw [structFrom, entry_eq_ok head]
          change (Layout.aligned offset ty.align >>= _) = _
          rw [Layout.aligned_exact nonneg aligned]
          dsimp only [List.foldl_cons, Form.structEnd]
          by_cases startFits : Extent.roundUp offset ty.align ≤ Extent.maxValue
          · rw [if_pos startFits]
            change (Layout.sized (Extent.add? _ _) >>= _) = _
            rw [Layout.sized_add_exact (by omega)]
            by_cases stopFits : Extent.roundUp offset ty.align + ty.size ≤ Extent.maxValue
            · rw [if_pos stopFits]
              change (types.structFrom rest _ _ >>= _) = _
              rw [hypothesis tail others (by omega) (alignment.max aligned)]
              dsimp only
              split <;> rfl
            · rw [if_neg stopFits, if_neg (by omega)]
              rfl
          · rw [if_neg startFits, if_neg (by omega)]
            rfl

/-- Fields of a union are placed as over unbounded integers, if the whole is in range. -/
theorem unionFrom_exact
    (typed : fields.map (fun field => types.get? field.ty) = tys.map some)
    (placeable : ∀ ty ∈ tys, 0 ≤ ty.size ∧ Extent.IsAlignment ty.align)
    {largest align : Int}
    (nonneg : 0 ≤ largest)
    (alignment : Extent.IsAlignment align) :
    types.unionFrom fields largest align =
      let widest := tys.foldl (fun align ty => max align ty.align) align
      let size :=
        Extent.roundUp (tys.foldl (fun size ty => max size ty.size) largest) widest
      if size ≤ Extent.maxValue then
        .ok ⟨List.zipWith Field.placedAt fields (tys.map fun _ => 0), size, widest⟩
      else .error .sizeOverflow := by
  induction fields generalizing tys largest align with
  | nil =>
      obtain rfl := List.map_eq_nil_iff.mp typed.symm
      rw [unionFrom, Layout.aligned_exact nonneg alignment]
      dsimp only [List.foldl_nil, List.zipWith_nil_left]
      split <;> rfl
  | cons field rest hypothesis =>
      cases tys with
      | nil => cases typed
      | cons ty tys =>
          obtain ⟨head, tail⟩ := List.cons.inj typed
          obtain ⟨⟨sized, aligned⟩, others⟩ := List.forall_mem_cons.mp placeable
          rw [unionFrom, entry_eq_ok head]
          change (types.unionFrom rest _ _ >>= _) = _
          rw [hypothesis tail others (by omega) (alignment.max aligned)]
          dsimp only [List.foldl_cons]
          split <;> rfl

/-- A layout is that over unbounded integers, or fails because that is too large. -/
theorem layout_exact
    (form : Form)
    (typed : fields.map (fun field => types.get? field.ty) = tys.map some)
    (placeable : ∀ ty ∈ tys, 0 ≤ ty.size ∧ Extent.IsAlignment ty.align) :
    types.layout form fields =
      if (form.layout fields tys).size ≤ Extent.maxValue then .ok (form.layout fields tys)
      else .error .sizeOverflow := by
  cases form with
  | struct => exact structFrom_exact typed placeable (Int.le_refl 0) .one
  | union => exact unionFrom_exact typed placeable (Int.le_refl 0) .one

/-- A type is completed with the layout over unbounded integers, if that is in range. -/
theorem complete_exact
    {id : TyId}
    {ty : Ty}
    (present : types.get? id = some ty)
    (typed : fields.map (fun field => types.get? field.ty) = tys.map some)
    (placeable : ∀ ty ∈ tys, 0 ≤ ty.size ∧ Extent.IsAlignment ty.align) :
    types.complete id fields =
      let layout := (formOf ty).layout fields tys
      if layout.size ≤ Extent.maxValue then
        .ok ⟨types.entries.setIfInBounds id.index
          ⟨.aggregate (formOf ty) layout.members, layout.size, layout.align,
            ty.declToken⟩⟩
      else .error .sizeOverflow := by
  rw [complete, entry_eq_ok present]
  change (types.layout _ _ >>= _) = _
  rw [layout_exact _ typed placeable]
  dsimp only
  split <;> rfl

end TypeTable

/-! ## Completing a type -/

open Grammar

/-- What completing a type does to the state of the parser. -/
theorem completeTy_of_ok
    {state : State}
    {more : TypeTable}
    {id : TyId}
    {fields : List Field}
    (tok : Nat)
    (completed : state.program.types.complete id fields = .ok more) :
    completeTy id fields tok state =
      .ok () { state with program := { state.program with types := more } } := by
  unfold completeTy
  rw [get_run, completed]
  rfl

/-- A type that is too large is rejected, and the state stays as it is. -/
theorem completeTy_of_sizeOverflow
    {state : State}
    {id : TyId}
    {fields : List Field}
    (tok : Nat)
    (failed : state.program.types.complete id fields = .error .sizeOverflow) :
    completeTy id fields tok state =
      .error (.rejected (.typing .aggregateTooLarge) (state.token tok).loc) state := by
  unfold completeTy
  rw [get_run, failed]
  rfl

/-- Completing a struct or union gives it the layout over unbounded integers when that is
in range, and changes no other type; otherwise it fails and changes nothing. -/
theorem complete_lays_out_exactly
    {types : TypeTable}
    {id : TyId}
    {ty : Ty}
    {fields : List Field}
    {tys : List Ty}
    (present : types.get? id = some ty)
    (typed : fields.map (fun field => types.get? field.ty) = tys.map some)
    (placeable : ∀ ty ∈ tys, 0 ≤ ty.size ∧ Extent.IsAlignment ty.align) :
    ∃ layout : Layout, layout.Exact (TypeTable.formOf ty) fields tys ∧
      (∀ other : Layout, other.Exact (TypeTable.formOf ty) fields tys -> other = layout) ∧
      ((∃ more, types.complete id fields = .ok more) ↔ layout.size ≤ Extent.maxValue) ∧
      (∀ more, types.complete id fields = .ok more ->
        more.get? id = some ⟨.aggregate (TypeTable.formOf ty) layout.members, layout.size,
          layout.align, ty.declToken⟩ ∧
        (∀ other, other ≠ id -> more.get? other = types.get? other) ∧
        ∀ tok state, state.program.types = types ->
          completeTy id fields tok state =
            .ok () { state with program := { state.program with types := more } }) ∧
      (Extent.maxValue < layout.size ->
        types.complete id fields = .error .sizeOverflow ∧
        ∀ tok state, state.program.types = types ->
          completeTy id fields tok state =
            .error (.rejected (.typing .aggregateTooLarge) (state.token tok).loc)
              state) := by
  have same : fields.length = tys.length := by simpa using congrArg List.length typed
  have sizes (ty : Ty) (listed : ty ∈ tys) : 0 ≤ ty.size ∧ 0 < ty.align :=
    ⟨(placeable ty listed).1, (placeable ty listed).2.pos⟩
  have exact_ := Layout.exact_layout (TypeTable.formOf ty) same sizes
  have run := TypeTable.complete_exact present typed placeable
  refine ⟨_, exact_, fun other laid => laid.unique same exact_, ?_, ?_, ?_⟩
  · rw [run]
    dsimp only
    split
    · rename_i inRange
      exact iff_of_true ⟨_, rfl⟩ inRange
    · rename_i outside
      exact iff_of_false nofun outside
  · intro more completed
    obtain ⟨bound, -⟩ := Array.getElem?_eq_some_iff.mp present
    rw [run] at completed
    dsimp only at completed
    split at completed
    · obtain rfl := Except.ok.inj completed
      refine ⟨by simp [TypeTable.get?, bound], fun other differ => ?_, ?_⟩
      · have elsewhere : id.index ≠ other.index := fun same =>
          differ (congrArg TyId.mk same.symm)
        simp [TypeTable.get?, Array.getElem?_setIfInBounds_ne elsewhere]
      · rintro tok state rfl
        exact completeTy_of_ok tok (run.trans (if_pos ‹_›))
    · cases completed
  · intro large
    have failed := run.trans (if_neg (Int.not_le.mpr large))
    refine ⟨failed, ?_⟩
    rintro tok state rfl
    exact completeTy_of_sizeOverflow tok failed

/-- A table with an array of characters and a struct whose members are not known yet. -/
def TypeTable.withCharacters (length : Int) : TypeTable :=
  ((TypeTable.initial.insert ⟨.array .char length, length, 1, none⟩).2.incomplete
    .struct 0).2

/-- A struct of a word and characters just below the limit is laid out.  With one
character more its members still end in range, but the next multiple of the alignment does
not. -/
theorem largest_struct_is_laid_out :
    let fields : List Field := [⟨"word", .long, 1⟩, ⟨"text", ⟨6⟩, 2⟩]
    (∃ more, (TypeTable.withCharacters 9223372036854775792).complete
      ⟨7⟩ fields = .ok more ∧
      more.get? ⟨7⟩ = some ⟨.aggregate .struct
        [⟨"word", .long, 0, 1⟩, ⟨"text", ⟨6⟩, 8, 2⟩], 9223372036854775800, 8, some 0⟩) ∧
    (TypeTable.withCharacters 9223372036854775793).complete ⟨7⟩ fields =
      .error .sizeOverflow := by
  intro fields
  let tys (length : Int) : List Ty :=
    [⟨.long, 8, 8, none⟩, ⟨.array .char length, length, 1, none⟩]
  have placeable (length : Int) (nonneg : 0 ≤ length) :
      ∀ ty ∈ tys length, 0 ≤ ty.size ∧ Extent.IsAlignment ty.align := by
    simp only [tys, List.forall_mem_cons, List.not_mem_nil, false_imp_iff,
      implies_true, and_true]
    exact ⟨⟨by decide, 3, by decide, rfl⟩, nonneg, .one⟩
  have sizes (length : Int) (nonneg : 0 ≤ length) (ty : Ty) (listed : ty ∈ tys length) :
      0 ≤ ty.size ∧ 0 < ty.align :=
    ⟨(placeable length nonneg ty listed).1, (placeable length nonneg ty listed).2.pos⟩
  constructor
  · obtain ⟨layout, -, unique, fits, laid, -⟩ :=
      @complete_lays_out_exactly (.withCharacters 9223372036854775792) ⟨7⟩ _ fields
        (tys 9223372036854775792) rfl rfl (placeable _ (by decide))
    obtain rfl := unique _ (Layout.exact_layout .struct rfl (sizes _ (by decide)))
    obtain ⟨more, completed⟩ := fits.mpr (by decide)
    exact ⟨more, completed, (laid more completed).1⟩
  · obtain ⟨layout, -, unique, -, -, large⟩ :=
      @complete_lays_out_exactly (.withCharacters 9223372036854775793) ⟨7⟩ _ fields
        (tys 9223372036854775793) rfl rfl (placeable _ (by decide))
    obtain rfl := unique _ (Layout.exact_layout .struct rfl (sizes _ (by decide)))
    exact (large (by decide)).1

end MiniC
