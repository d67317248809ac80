import MiniC.Proofs.Program.Rules
import MiniC.Ty.Layout

/-!
# Layouts in well-formed tables

Rounding up reaches the next multiple.  In a table whose references have targets, the
layout of fields that have a size either exceeds the range of sizes or gives every field a
place, with a size and an alignment for the whole.
-/

namespace MiniC

namespace Extent

/-- A size is rounded up to the least multiple that is not below it. -/
theorem alignUp?_bounds
    {size align place : Int}
    (nonneg : 0 ≤ size)
    (positive : 0 < align)
    (rounded : alignUp? size align = some place) :
    size ≤ place ∧ place < size + align ∧ place % align = 0 := by
  unfold alignUp? add? at rounded
  rw [Option.map_eq_some_iff] at rounded
  obtain ⟨bound, checked, equal⟩ := rounded
  obtain ⟨_, rfl⟩ := check?_eq_some_iff.mp checked
  rw [Int.tdiv_eq_ediv_of_nonneg (by omega)] at equal
  have below : (size + (align - 1)) / align * align ≤ size + (align - 1) :=
    Int.ediv_mul_le _ (by omega)
  have above : size + (align - 1) < ((size + (align - 1)) / align + 1) * align :=
    Int.lt_ediv_add_one_mul_self _ positive
  rw [Int.add_mul, Int.one_mul] at above
  refine ⟨by omega, by omega, ?_⟩
  rw [← equal]
  exact Int.mul_emod_left _ _

/-- A size rounded up to a multiple of an alignment, however large. -/
def roundUp (size align : Int) : Int := (size + (align - 1)) / align * align

theorem le_roundUp (size : Int) {align : Int} (positive : 0 < align) :
    size ≤ roundUp size align := by
  have above : size + (align - 1) < ((size + (align - 1)) / align + 1) * align :=
    Int.lt_ediv_add_one_mul_self _ positive
  rw [Int.add_mul, Int.one_mul] at above
  unfold roundUp
  omega

/-- A size is rounded up exactly, or the sum on the way leaves the range. -/
theorem alignUp?_eq {size align : Int} (nonneg : 0 ≤ size) (positive : 0 < align) :
    alignUp? size align =
      if size + (align - 1) ≤ maxValue then some (roundUp size align) else none := by
  have low : minValue ≤ size + (align - 1) := by
    unfold minValue
    omega
  unfold alignUp? add? check? roundUp
  by_cases high : size + (align - 1) ≤ maxValue
  · have inRange : InRange (size + (align - 1)) := ⟨low, high⟩
    rw [if_pos high, if_pos inRange, Option.map_some,
      Int.tdiv_eq_ediv_of_nonneg (by omega)]
  · have outside : ¬InRange (size + (align - 1)) := fun inRange => high inRange.2
    rw [if_neg high, if_neg outside, Option.map_none]

/-- What is rounded up stays in range. -/
theorem alignUp?_le_maxValue
    {size align place : Int}
    (nonneg : 0 ≤ size)
    (positive : 0 < align)
    (rounded : alignUp? size align = some place) :
    place ≤ maxValue := by
  unfold alignUp? add? at rounded
  rw [Option.map_eq_some_iff] at rounded
  obtain ⟨bound, checked, rfl⟩ := rounded
  obtain ⟨⟨_, inRange⟩, rfl⟩ := check?_eq_some_iff.mp checked
  rw [Int.tdiv_eq_ediv_of_nonneg (by omega)]
  exact Int.le_trans (Int.ediv_mul_le _ (by omega)) inRange

end Extent

namespace Layout

/-- Rounding up to a positive alignment fails only for want of range. -/
theorem aligned_cases (size : Int) {align : Int} (positive : 0 < align) :
    aligned size align = .error .sizeOverflow ∨
      ∃ place, aligned size align = .ok place ∧ Extent.alignUp? size align =
        some place := by
  unfold aligned
  rw [if_pos positive]
  cases Extent.alignUp? size align with
  | none => exact .inl rfl
  | some place => exact .inr ⟨place, rfl, rfl⟩

/-- A sum of sizes fails only for want of range. -/
theorem sized_add_cases (left right : Int) :
    sized (Extent.add? left right) = .error .sizeOverflow ∨
      sized (Extent.add? left right) = .ok (left + right) := by
  unfold Extent.add? Extent.check?
  split
  · exact .inr rfl
  · exact .inl rfl

end Layout

namespace TypeTable

variable {types : TypeTable}

theorem entry_eq_ok {id : TyId} {ty : Ty} (found : types.get? id = some ty) :
    types.entry id = .ok ty := by
  unfold entry
  rw [found]

/-- A field whose type is there and has a size. -/
def FieldRule (types : TypeTable) (field : Field) : Prop :=
  ∃ ty, types.get? field.ty = some ty ∧ 0 ≤ ty.size

/-- What a layout of fields keeps.  The whole is no smaller than the given size, and the
members of a struct lie behind it. -/
structure LayoutRule (types : TypeTable) (form : Form) (least : Int) (fields : List Field)
    (layout : Layout) : Prop where
  members : layout.members.map (·.ty) = fields.map (·.ty)
  size : least ≤ layout.size
  small : layout.size ≤ Extent.maxValue
  align : 0 < layout.align
  align_le : layout.align ≤ 8
  nonneg : ∀ member ∈ layout.members, 0 ≤ member.offset
  inside : ∀ member ∈ layout.members, types.EndsBy member layout.size
  behind : form = .struct -> ∀ member ∈ layout.members, least ≤ member.offset
  ordered : form = .struct ->
    layout.members.Pairwise fun first second => types.EndsBy first second.offset

/-- A layout without members. -/
theorem LayoutRule.nil
    {form : Form}
    {least align place : Int}
    (nonneg : 0 ≤ least)
    (positive : 0 < align)
    (narrow : align ≤ 8)
    (rounded : Extent.alignUp? least align = some place) :
    LayoutRule types form least [] ⟨[], place, align⟩ where
  members := rfl
  size := (Extent.alignUp?_bounds nonneg positive rounded).1
  small := Extent.alignUp?_le_maxValue nonneg positive rounded
  align := positive
  align_le := narrow
  nonneg := by simp
  inside := by simp
  behind := by simp
  ordered := by simp

/-- One more member in front of the others.  Those of a struct lie behind its end. -/
theorem LayoutRule.cons
    {form : Form}
    {least start stop : Int}
    {field : Field}
    {fields : List Field}
    {layout : Layout}
    {ty : Ty}
    (rule : LayoutRule types form stop fields layout)
    (found : types.get? field.ty = some ty)
    (sized : 0 ≤ ty.size)
    (nonneg : 0 ≤ start)
    (room : start + ty.size ≤ stop)
    (least_le : least ≤ stop)
    (after : form = .struct -> least ≤ start) :
    LayoutRule types form least (field :: fields)
      { layout with members := field.placedAt start :: layout.members } where
  members := by simp [Field.placedAt, rule.members]
  size := Int.le_trans least_le rule.size
  small := rule.small
  align := rule.align
  align_le := rule.align_le
  nonneg := by
    intro member listed
    rcases List.mem_cons.mp listed with rfl | later
    · exact nonneg
    · exact rule.nonneg member later
  inside := by
    intro member listed
    rcases List.mem_cons.mp listed with rfl | later
    · exact ⟨ty, found, sized, Int.le_trans room rule.size⟩
    · exact rule.inside member later
  behind := by
    intro isStruct member listed
    rcases List.mem_cons.mp listed with rfl | later
    · exact after isStruct
    · exact Int.le_trans least_le (rule.behind isStruct member later)
  ordered := by
    intro isStruct
    refine List.pairwise_cons.mpr ⟨?_, rule.ordered isStruct⟩
    intro member later
    exact ⟨ty, found, sized, Int.le_trans room (rule.behind isStruct member later)⟩

/-- A struct of fields that have a size is laid out or exceeds the range of sizes. -/
theorem structFrom_cases
    (sound : types.Sound)
    {fields : List Field}
    (ruled : ∀ field ∈ fields, types.FieldRule field)
    {offset align : Int}
    (nonneg : 0 ≤ offset)
    (positive : 0 < align)
    (narrow : align ≤ 8) :
    types.structFrom fields offset align = .error .sizeOverflow ∨
      ∃ layout, types.structFrom fields offset align = .ok layout ∧
        LayoutRule types .struct offset fields layout := by
  induction fields generalizing offset align with
  | nil =>
      rw [structFrom]
      rcases Layout.aligned_cases offset positive with failed | ⟨place, reached, rounded⟩
      · exact .inl (by rw [failed]; rfl)
      · exact .inr ⟨⟨[], place, align⟩, by rw [reached]; rfl,
          .nil nonneg positive narrow rounded⟩
  | cons field rest hypothesis =>
      obtain ⟨ty, found, sized⟩ := ruled field List.mem_cons_self
      have tyAlign := sound.align field.ty ty found
      have tyNarrow := sound.align_le field.ty ty found
      rw [structFrom, entry_eq_ok found]
      rcases Layout.aligned_cases offset tyAlign with failed | ⟨start, reached, rounded⟩
      · exact .inl (by simp only [bind, Except.bind, failed])
      have bounds := Extent.alignUp?_bounds nonneg tyAlign rounded
      rcases Layout.sized_add_cases start ty.size with failed | added
      · exact .inl (by simp only [bind, Except.bind, reached, failed])
      have later : ∀ other ∈ rest, types.FieldRule other :=
        fun other member => ruled other (List.mem_cons_of_mem field member)
      have startNonneg : 0 ≤ start + ty.size := by omega
      have alignPositive : 0 < max align ty.align := by omega
      have alignNarrow : max align ty.align ≤ 8 := by omega
      rcases hypothesis later startNonneg alignPositive alignNarrow with
        failed | ⟨layout, laid, rule⟩
      · exact .inl (by simp only [bind, Except.bind, reached, added, failed])
      · exact .inr ⟨{ layout with members := field.placedAt start :: layout.members },
          by simp only [bind, Except.bind, reached, added, laid]; rfl,
          rule.cons found sized (by omega) (Int.le_refl _) (by omega) fun _ => bounds.1⟩

/-- A union of fields that have a size is laid out or exceeds the range of sizes. -/
theorem unionFrom_cases
    (sound : types.Sound)
    {fields : List Field}
    (ruled : ∀ field ∈ fields, types.FieldRule field)
    {largest align : Int}
    (nonneg : 0 ≤ largest)
    (positive : 0 < align)
    (narrow : align ≤ 8) :
    types.unionFrom fields largest align = .error .sizeOverflow ∨
      ∃ layout, types.unionFrom fields largest align = .ok layout ∧
        LayoutRule types .union largest fields layout := by
  induction fields generalizing largest align with
  | nil =>
      rw [unionFrom]
      rcases Layout.aligned_cases largest positive with failed | ⟨place, reached, rounded⟩
      · exact .inl (by rw [failed]; rfl)
      · exact .inr ⟨⟨[], place, align⟩, by rw [reached]; rfl,
          .nil nonneg positive narrow rounded⟩
  | cons field rest hypothesis =>
      obtain ⟨ty, found, sized⟩ := ruled field List.mem_cons_self
      have later : ∀ other ∈ rest, types.FieldRule other :=
        fun other member => ruled other (List.mem_cons_of_mem field member)
      have tyNarrow := sound.align_le field.ty ty found
      have sizeNonneg : 0 ≤ max largest ty.size := by omega
      have alignPositive : 0 < max align ty.align := by omega
      have alignNarrow : max align ty.align ≤ 8 := by omega
      rw [unionFrom, entry_eq_ok found]
      rcases hypothesis later sizeNonneg alignPositive alignNarrow with
        failed | ⟨layout, laid, rule⟩
      · exact .inl (by simp only [bind, Except.bind, failed])
      · exact .inr ⟨{ layout with members := field.placedAt 0 :: layout.members },
          by simp only [bind, Except.bind, laid]; rfl,
          rule.cons found sized (Int.le_refl 0) (by omega) (by omega) nofun⟩

theorem layout_cases
    (sound : types.Sound)
    (form : Form)
    {fields : List Field}
    (ruled : ∀ field ∈ fields, types.FieldRule field) :
    types.layout form fields = .error .sizeOverflow ∨
      ∃ layout, types.layout form fields = .ok layout ∧
        LayoutRule types form 0 fields layout := by
  cases form with
  | struct => exact structFrom_cases sound ruled (by omega) (by omega) (by omega)
  | union => exact unionFrom_cases sound ruled (by omega) (by omega) (by omega)

/-- A struct or union that has no members yet gets those of its fields, or exceeds the
range of sizes. -/
theorem complete_cases
    (sound : types.Sound)
    {id : TyId}
    {ty : Ty}
    {form : Form}
    (found : types.get? id = some ty)
    (kind : ty.kind = .aggregate form [])
    {fields : List Field}
    (ruled : ∀ field ∈ fields, types.FieldRule field) :
    types.complete id fields = .error .sizeOverflow ∨
      ∃ layout, LayoutRule types form 0 fields layout ∧ types.complete id fields =
        .ok ⟨types.entries.setIfInBounds id.index
          ⟨.aggregate form layout.members, layout.size, layout.align, ty.declToken⟩⟩ := by
  have own : formOf ty = form := by simp [formOf, kind]
  unfold complete
  rw [entry_eq_ok found]
  rcases layout_cases sound form ruled with failed | ⟨layout, laid, rule⟩
  · exact .inl (by simp only [bind, Except.bind, own, failed])
  · exact .inr ⟨layout, rule, by simp only [bind, Except.bind, own, laid]; rfl⟩

/-- An array is entered with a size, or exceeds the range of sizes. -/
theorem arrayOf_cases
    {base : TyId}
    {element : Ty}
    (found : types.get? base = some element)
    (length : Int) :
    types.arrayOf base length = .error .sizeOverflow ∨
      Extent.InRange (element.size * length) ∧ types.arrayOf base length =
        .ok (types.insert ⟨.array base length, element.size * length,
          element.align, none⟩) := by
  unfold arrayOf
  rw [entry_eq_ok found]
  by_cases inRange : Extent.InRange (element.size * length)
  · refine .inr ⟨inRange, ?_⟩
    simp only [bind, Except.bind, Extent.mul?, Extent.check?,
      if_pos inRange, Layout.sized]
    rfl
  · refine .inl ?_
    simp only [bind, Except.bind, Extent.mul?, Extent.check?,
      if_neg inRange, Layout.sized]

end TypeTable

end MiniC
