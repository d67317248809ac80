import Mathlib.Logic.Relation
import MiniC.Proofs.Result
import MiniC.Proofs.Ty.Layout

/-!
# Consistent tables of types

A size is recorded when a type is entered or completed, while other types may still be
without members.  In a consistent table every recorded size is that of the layout rules
for the entries the table has now, and no type contains itself.

The types whose members are still being read are the open ones.  Nothing that has a size
refers to one of them by value, so completing it changes no other size.
-/

namespace MiniC

theorem Extent.roundUp_emod (size align : Int) : roundUp size align % align = 0 :=
  Int.mul_emod_left _ _

/-! ## The layout rules -/

namespace Form

/-- Where the members of a struct start, the first of them at an offset or behind it. -/
def structOffsets (offset : Int) : List Ty -> List Int
  | [] => []
  | ty :: rest =>
      let start := Extent.roundUp offset ty.align
      start :: structOffsets (start + ty.size) rest

/-- Where the last member of a struct ends. -/
def structEnd (offset : Int) : List Ty -> Int
  | [] => offset
  | ty :: rest => structEnd (Extent.roundUp offset ty.align + ty.size) rest

/-- The offsets of members that have the given types. -/
def offsets (form : Form) (tys : List Ty) : List Int :=
  match form with
  | struct => structOffsets 0 tys
  | union => tys.map fun _ => 0

/-- The bytes that members of the given types take, without padding behind them. -/
def extent (form : Form) (tys : List Ty) : Int :=
  match form with
  | struct => structEnd 0 tys
  | union => tys.foldl (fun largest ty => max largest ty.size) 0

/-- The alignment of members that have the given types: the widest of theirs. -/
def alignment (tys : List Ty) : Int := tys.foldl (fun align ty => max align ty.align) 1

end Form

namespace TyKind

/-- The types whose values are inside a value of a type. -/
def parts : TyKind -> List TyId
  | array base _ => [base]
  | aggregate _ members => members.map (·.ty)
  | _ => []

end TyKind

namespace TypeTable

/-- A type that is there and has a size. -/
def Sized (types : TypeTable) (id : TyId) : Prop :=
  ∃ ty, types.get? id = some ty ∧ 0 ≤ ty.size

/-- Members, a size and an alignment that the layout rules give for the types that the
members have in a table. -/
def LaidOut (types : TypeTable) (form : Form) (members : List Member) (size align : Int) :
    Prop :=
  ∃ tys : List Ty,
    members.map (fun member => types.get? member.ty) = tys.map some ∧
    members.map (·.offset) = form.offsets tys ∧
    align = Form.alignment tys ∧
    size = Extent.roundUp (form.extent tys) align ∧
    ∀ ty ∈ tys, 0 ≤ ty.size

/-- An entry with a size that the entries of a table give it. -/
structure EntryFits (types : TypeTable) (ty : Ty) : Prop where
  align : ty.align ∈ [1, 2, 4, 8]
  multiple : ty.size % ty.align = 0
  array : ∀ base length, ty.kind = .array base length ->
    ∃ element, types.get? base = some element ∧ 0 ≤ element.size ∧
      ty.size = length * element.size
  members : ∀ form members, ty.kind = .aggregate form members ->
    types.LaidOut form members ty.size ty.align

/-- A value of one type is inside a value of another, as a member or as an element. -/
def Holds (types : TypeTable) (outer inner : TyId) : Prop :=
  ∃ ty, types.get? outer = some ty ∧ inner ∈ ty.kind.parts

/-- A table whose types have the sizes that its entries give them, but for the open ones,
which have none. -/
structure Consistent (types : TypeTable) (opened : List TyId) : Prop where
  primitives : ∀ id ty, initial.get? id = some ty -> types.get? id = some ty
  unsized : ∀ id ∈ opened, ∃ ty, types.get? id = some ty ∧ ty.size < 0
  opened : ∀ id ty, types.get? id = some ty -> ty.size < 0 -> id ∈ opened
  entries : ∀ id ty, types.get? id = some ty -> 0 ≤ ty.size -> types.EntryFits ty
  founded : ∀ id, types.Sized id -> Acc (fun inner outer => types.Holds outer inner) id

/-- A table in which the types that had a size have stayed as they were. -/
def Keeps (types more : TypeTable) : Prop :=
  ∀ id ty, types.get? id = some ty -> 0 ≤ ty.size -> more.get? id = some ty

namespace Keeps

variable {types more : TypeTable}

theorem refl (types : TypeTable) : types.Keeps types := fun _ _ found _ => found

theorem trans {last : TypeTable} (first : types.Keeps more) (second : more.Keeps last) :
    types.Keeps last :=
  fun id ty found sized => second id ty (first id ty found sized) sized

theorem sized (keeps : types.Keeps more) {id : TyId} (sized : types.Sized id) :
    more.Sized id := by
  obtain ⟨ty, found, known⟩ := sized
  exact ⟨ty, keeps id ty found known, known⟩

theorem laidOut
    (keeps : types.Keeps more)
    {form : Form}
    {members : List Member}
    {size align : Int}
    (laid : types.LaidOut form members size align) :
    more.LaidOut form members size align := by
  obtain ⟨tys, found, rest⟩ := laid
  refine ⟨tys, ?_, rest⟩
  have sizes := rest.2.2.2
  clear rest
  induction members generalizing tys with
  | nil => exact found
  | cons member members hypothesis =>
      cases tys with
      | nil => cases found
      | cons ty tys =>
          obtain ⟨head, tail⟩ := List.cons.inj found
          obtain ⟨sized, others⟩ := List.forall_mem_cons.mp sizes
          exact congrArg₂ List.cons (keeps _ _ head sized) (hypothesis tys tail others)

theorem entryFits (keeps : types.Keeps more) {ty : Ty} (fits : types.EntryFits ty) :
    more.EntryFits ty where
  align := fits.align
  multiple := fits.multiple
  array := by
    intro base length kind
    obtain ⟨element, found, sized, size⟩ := fits.array base length kind
    exact ⟨element, keeps base element found sized, sized, size⟩
  members := fun form members kind => keeps.laidOut (fits.members form members kind)

end Keeps

/-- What a type with a size contains has a size. -/
theorem EntryFits.sized_of_mem_parts
    {types : TypeTable}
    {ty : Ty}
    (fits : types.EntryFits ty)
    {inner : TyId}
    (member : inner ∈ ty.kind.parts) :
    types.Sized inner := by
  cases kind : ty.kind with
  | array base length =>
      obtain ⟨element, found, sized, -⟩ := fits.array base length kind
      obtain rfl : inner = base := by simpa [kind, TyKind.parts] using member
      exact ⟨element, found, sized⟩
  | aggregate form members =>
      obtain ⟨tys, found, -, -, -, sizes⟩ := fits.members form members kind
      rw [kind] at member
      obtain ⟨field, listed, rfl⟩ := List.mem_map.mp member
      have known : types.get? field.ty ∈ tys.map some :=
        found ▸ List.mem_map_of_mem listed
      obtain ⟨entry, own, same⟩ := List.mem_map.mp known
      exact ⟨entry, same.symm, sizes entry own⟩
  | _ => simp [kind, TyKind.parts] at member

namespace Consistent

variable {types more : TypeTable} {opened : List TyId}

/-- A type with a size contains itself no more than before, while such types stay as they
are. -/
theorem founded_of_keeps
    (consistent : types.Consistent opened)
    (keeps : types.Keeps more)
    {id : TyId}
    (sized : types.Sized id) :
    Acc (fun inner outer => more.Holds outer inner) id := by
  have founded := consistent.founded id sized
  induction founded with
  | intro id _ hypothesis =>
      obtain ⟨ty, found, known⟩ := sized
      refine .intro id fun inner holds => ?_
      obtain ⟨entry, reached, member⟩ := holds
      obtain rfl := Option.some.inj (reached.symm.trans (keeps id ty found known))
      exact hypothesis inner ⟨_, found, member⟩
        ((consistent.entries id _ found known).sized_of_mem_parts member)

/-! ## Entering types -/

theorem keeps_insert (types : TypeTable) (ty : Ty) : types.Keeps (types.insert ty).2 :=
  fun _ _ found _ => get?_insert_of_some found ty

/-- An entry of a table with one more type is the new one or was there before. -/
theorem get?_insert_cases
    {id : TyId}
    {ty entry : Ty}
    (found : (types.insert ty).2.get? id = some entry) :
    types.get? id = some entry ∨ id = (types.insert ty).1 ∧ entry = ty := by
  by_cases new : id = (types.insert ty).1
  · subst new
    exact .inr ⟨rfl, Option.some.inj (found.symm.trans (get?_insert_self types ty))⟩
  · refine .inl ?_
    have other : id.index ≠ types.entries.size := fun same => new (congrArg TyId.mk same)
    simpa [insert, get?, Array.getElem?_push, other] using found

/-- A type is entered with the size that the table gives it. -/
theorem insert
    (consistent : types.Consistent opened)
    {ty : Ty}
    (sized : 0 ≤ ty.size)
    (fits : types.EntryFits ty) :
    (types.insert ty).2.Consistent opened where
  primitives := fun id entry found =>
    get?_insert_of_some (consistent.primitives id entry found) ty
  unsized := by
    intro id member
    obtain ⟨entry, found, unsized⟩ := consistent.unsized id member
    exact ⟨entry, get?_insert_of_some found ty, unsized⟩
  opened := by
    intro id entry found unsized
    rcases get?_insert_cases found with before | ⟨-, rfl⟩
    · exact consistent.opened id entry before unsized
    · omega
  entries := by
    intro id entry found known
    rcases get?_insert_cases found with before | ⟨-, rfl⟩
    · exact (keeps_insert types ty).entryFits (consistent.entries id entry before known)
    · exact (keeps_insert types _).entryFits fits
  founded := by
    rintro id ⟨entry, found, known⟩
    rcases get?_insert_cases found with before | ⟨-, rfl⟩
    · exact consistent.founded_of_keeps (keeps_insert types ty) ⟨entry, before, known⟩
    · refine .intro id fun inner holds => ?_
      obtain ⟨other, reached, member⟩ := holds
      obtain rfl := Option.some.inj (reached.symm.trans found)
      exact consistent.founded_of_keeps (keeps_insert types _)
        (fits.sized_of_mem_parts member)

/-- A type that contains no other fits every table. -/
theorem insert_plain
    (consistent : types.Consistent opened)
    {kind : TyKind}
    {size align : Int}
    (sized : 0 ≤ size)
    (aligned : align ∈ [1, 2, 4, 8])
    (multiple : size % align = 0)
    (noArray : ∀ base length, kind ≠ .array base length)
    (scalar : ∀ form members, kind ≠ .aggregate form members) :
    (types.insert ⟨kind, size, align, none⟩).2.Consistent opened :=
  consistent.insert sized
    ⟨aligned, multiple, fun base length same => absurd same (noArray base length),
      fun form members same => absurd same (scalar form members)⟩

/-- A struct or union is entered open. -/
theorem insert_open
    (consistent : types.Consistent opened)
    {ty : Ty}
    (unsized : ty.size < 0) :
    (types.insert ty).2.Consistent ((types.insert ty).1 :: opened) where
  primitives := fun id entry found =>
    get?_insert_of_some (consistent.primitives id entry found) ty
  unsized := by
    intro id member
    rcases List.mem_cons.mp member with rfl | before
    · exact ⟨ty, get?_insert_self types ty, unsized⟩
    · obtain ⟨entry, found, none⟩ := consistent.unsized id before
      exact ⟨entry, get?_insert_of_some found ty, none⟩
  opened := by
    intro id entry found none
    rcases get?_insert_cases found with before | ⟨rfl, -⟩
    · exact List.mem_cons_of_mem _ (consistent.opened id entry before none)
    · exact List.mem_cons_self
  entries := by
    intro id entry found known
    rcases get?_insert_cases found with before | ⟨-, rfl⟩
    · exact (keeps_insert types ty).entryFits (consistent.entries id entry before known)
    · omega
  founded := by
    rintro id ⟨entry, found, known⟩
    rcases get?_insert_cases found with before | ⟨-, rfl⟩
    · exact consistent.founded_of_keeps (keeps_insert types ty) ⟨entry, before, known⟩
    · omega

/-- A new type is none of the open ones. -/
theorem insert_not_mem (consistent : types.Consistent opened) (ty : Ty) :
    (types.insert ty).1 ∉ opened := by
  intro member
  obtain ⟨entry, found, -⟩ := consistent.unsized _ member
  obtain ⟨bound, -⟩ := Array.getElem?_eq_some_iff.mp found
  exact Nat.lt_irrefl _ bound

theorem pointerTo (consistent : types.Consistent opened) (base : TyId) :
    (types.pointerTo base).2.Consistent opened :=
  consistent.insert_plain (by decide) (by decide) (by decide) nofun nofun

theorem function (consistent : types.Consistent opened) (result : TyId)
    (params : List Param) :
    (types.function result params).2.Consistent opened :=
  consistent.insert_plain (by decide) (by decide) (by decide) nofun nofun

theorem enumeration (consistent : types.Consistent opened) :
    types.enumeration.2.Consistent opened :=
  consistent.insert_plain (by decide) (by decide) (by decide) nofun nofun

/-- An array of a type that has a size has one. -/
theorem arrayOf
    (consistent : types.Consistent opened)
    {base id : TyId}
    {length : Int}
    (sized : types.Sized base)
    (nonneg : 0 ≤ length)
    (entered : types.arrayOf base length = .ok (id, more)) :
    more.Consistent opened ∧ types.Keeps more := by
  obtain ⟨element, found, known⟩ := sized
  have fits := consistent.entries base element found known
  rcases arrayOf_cases found length with failed | ⟨-, reached⟩
  · cases failed.symm.trans entered
  · obtain ⟨-, rfl⟩ := Prod.mk.inj (Except.ok.inj (reached.symm.trans entered))
    refine ⟨consistent.insert (Int.mul_nonneg known nonneg) ⟨fits.align, ?_, ?_, nofun⟩,
      keeps_insert types _⟩
    · exact Int.emod_eq_zero_of_dvd
        (Int.dvd_mul_of_dvd_left (Int.dvd_of_emod_eq_zero fits.multiple))
    · rintro _ _ ⟨⟩
      exact ⟨element, found, known, Int.mul_comm _ _⟩

end Consistent

/-! ## Completing types -/

end TypeTable

namespace Layout

theorem eq_roundUp_of_aligned
    {size align place : Int}
    (nonneg : 0 ≤ size)
    (positive : 0 < align)
    (reached : aligned size align = .ok place) :
    place = Extent.roundUp size align := by
  rw [aligned, if_pos positive, Extent.alignUp?_eq nonneg positive] at reached
  split at reached
  · exact (Except.ok.inj reached).symm
  · cases reached

theorem eq_add_of_sized {left right sum : Int}
    (reached : sized (Extent.add? left right) = .ok sum) : sum = left + right := by
  rcases sized_add_cases left right with failed | added
  · cases failed.symm.trans reached
  · exact Except.ok.inj (reached.symm.trans added)

end Layout

namespace TypeTable

variable {types more : TypeTable} {opened : List TyId}

theorem get?_of_entry {id : TyId} {ty : Ty} (reached : types.entry id = .ok ty) :
    types.get? id = some ty := by
  unfold entry at reached
  split at reached
  · exact (Except.ok.inj reached) ▸ ‹_›
  · cases reached

/-- The fields of a struct are placed by the rules. -/
theorem structFrom_rules
    {fields : List Field}
    {tys : List Ty}
    {offset align : Int}
    {layout : Layout}
    (typed : fields.map (fun field => types.get? field.ty) = tys.map some)
    (sizes : ∀ ty ∈ tys, 0 ≤ ty.size ∧ 0 < ty.align)
    (nonneg : 0 ≤ offset)
    (positive : 0 < align)
    (laid : types.structFrom fields offset align = .ok layout) :
    layout.members.map (·.ty) = fields.map (·.ty) ∧
      layout.members.map (·.offset) = Form.structOffsets offset tys ∧
      layout.align = tys.foldl (fun align ty => max align ty.align) align ∧
      layout.size = Extent.roundUp (Form.structEnd offset tys) layout.align := by
  induction fields generalizing tys offset align layout with
  | nil =>
      obtain rfl := List.map_eq_nil_iff.mp typed.symm
      obtain ⟨size, rounded, same⟩ := bind_eq_ok.mp laid
      obtain rfl := Except.ok.inj same
      exact ⟨rfl, rfl, rfl, Layout.eq_roundUp_of_aligned nonneg positive rounded⟩
  | cons field rest hypothesis =>
      cases tys with
      | nil => cases typed
      | cons ty tys =>
          obtain ⟨head, tail⟩ := List.cons.inj typed
          obtain ⟨⟨sized, aligned⟩, others⟩ := List.forall_mem_cons.mp sizes
          obtain ⟨entry, found, laid⟩ := bind_eq_ok.mp laid
          obtain rfl := Option.some.inj (head.symm.trans (get?_of_entry found))
          obtain ⟨start, rounded, laid⟩ := bind_eq_ok.mp laid
          obtain rfl := Layout.eq_roundUp_of_aligned nonneg aligned rounded
          obtain ⟨stop, added, laid⟩ := bind_eq_ok.mp laid
          obtain rfl := Layout.eq_add_of_sized added
          obtain ⟨inner, innerLaid, same⟩ := bind_eq_ok.mp laid
          obtain rfl := Except.ok.inj same
          have least := Extent.le_roundUp offset aligned
          obtain ⟨names, offsets, widest, size⟩ :=
            hypothesis tail others (by omega) (by omega) innerLaid
          exact ⟨congrArg (field.ty :: ·) names, congrArg (_ :: ·) offsets, widest, size⟩

/-- The fields of a union are placed by the rules. -/
theorem unionFrom_rules
    {fields : List Field}
    {tys : List Ty}
    {largest align : Int}
    {layout : Layout}
    (typed : fields.map (fun field => types.get? field.ty) = tys.map some)
    (nonneg : 0 ≤ largest)
    (positive : 0 < align)
    (laid : types.unionFrom fields largest align = .ok layout) :
    layout.members.map (·.ty) = fields.map (·.ty) ∧
      layout.members.map (·.offset) = tys.map (fun _ => 0) ∧
      layout.align = tys.foldl (fun align ty => max align ty.align) align ∧
      layout.size = Extent.roundUp (tys.foldl (fun size ty => max size ty.size) largest)
        layout.align := by
  induction fields generalizing tys largest align layout with
  | nil =>
      obtain rfl := List.map_eq_nil_iff.mp typed.symm
      obtain ⟨size, rounded, same⟩ := bind_eq_ok.mp laid
      obtain rfl := Except.ok.inj same
      exact ⟨rfl, rfl, rfl, Layout.eq_roundUp_of_aligned nonneg positive rounded⟩
  | cons field rest hypothesis =>
      cases tys with
      | nil => cases typed
      | cons ty tys =>
          obtain ⟨head, tail⟩ := List.cons.inj typed
          obtain ⟨entry, found, laid⟩ := bind_eq_ok.mp laid
          obtain rfl := Option.some.inj (head.symm.trans (get?_of_entry found))
          obtain ⟨inner, innerLaid, same⟩ := bind_eq_ok.mp laid
          obtain rfl := Except.ok.inj same
          obtain ⟨names, offsets, widest, size⟩ :=
            hypothesis tail (by omega) (by omega) innerLaid
          exact ⟨congrArg (field.ty :: ·) names, congrArg (_ :: ·) offsets, widest, size⟩

/-- Fields that have a size are placed by the rules. -/
theorem layout_rules
    {form : Form}
    {fields : List Field}
    {tys : List Ty}
    {layout : Layout}
    (typed : fields.map (fun field => types.get? field.ty) = tys.map some)
    (sizes : ∀ ty ∈ tys, 0 ≤ ty.size ∧ 0 < ty.align)
    (laid : types.layout form fields = .ok layout) :
    types.LaidOut form layout.members layout.size layout.align := by
  have placed (names : layout.members.map (·.ty) = fields.map (·.ty)) :
      layout.members.map (fun field => types.get? field.ty) = tys.map some := by
    rw [← typed]
    simpa [Function.comp_def] using congrArg (List.map types.get?) names
  cases form with
  | struct =>
      obtain ⟨names, offsets, align, size⟩ :=
        structFrom_rules typed sizes (Int.le_refl 0) Int.one_pos laid
      exact ⟨tys, placed names, offsets, align, size, fun ty own => (sizes ty own).1⟩
  | union =>
      obtain ⟨names, offsets, align, size⟩ :=
        unionFrom_rules typed (Int.le_refl 0) Int.one_pos laid
      exact ⟨tys, placed names, offsets, align, size, fun ty own => (sizes ty own).1⟩

/-- The widest of alignments that a type can have is one. -/
theorem alignment_mem {tys : List Ty} (aligns : ∀ ty ∈ tys, ty.align ∈ [1, 2, 4, 8]) :
    Form.alignment tys ∈ [1, 2, 4, 8] := by
  have widest (align : Int) (known : align ∈ [1, 2, 4, 8]) :
      tys.foldl (fun align ty => max align ty.align) align ∈ [1, 2, 4, 8] := by
    induction tys generalizing align with
    | nil => exact known
    | cons ty tys hypothesis =>
        obtain ⟨head, tail⟩ := List.forall_mem_cons.mp aligns
        refine hypothesis tail _ ?_
        dsimp only
        rw [Int.max_def]
        split
        · exact head
        · exact known
  exact widest 1 (by decide)

theorem structEnd_nonneg {tys : List Ty} (sizes : ∀ ty ∈ tys, 0 ≤ ty.size ∧ 0 < ty.align)
    {offset : Int} (nonneg : 0 ≤ offset) : 0 ≤ Form.structEnd offset tys := by
  induction tys generalizing offset with
  | nil => exact nonneg
  | cons ty tys hypothesis =>
      obtain ⟨⟨sized, aligned⟩, others⟩ := List.forall_mem_cons.mp sizes
      have least := Extent.le_roundUp offset aligned
      exact hypothesis others (by omega)

theorem extent_nonneg (form : Form) {tys : List Ty}
    (sizes : ∀ ty ∈ tys, 0 ≤ ty.size ∧ 0 < ty.align) : 0 ≤ form.extent tys := by
  cases form with
  | struct => exact structEnd_nonneg sizes (Int.le_refl 0)
  | union =>
      have largest (size : Int) (nonneg : 0 ≤ size) :
          0 ≤ tys.foldl (fun size ty => max size ty.size) size := by
        clear sizes
        induction tys generalizing size with
        | nil => exact nonneg
        | cons ty tys hypothesis =>
            refine hypothesis _ ?_
            dsimp only
            omega
      exact largest 0 (Int.le_refl 0)

/-- What is laid out by the rules has a size that fits. -/
theorem LaidOut.fits
    {form : Form}
    {members : List Member}
    {size align : Int}
    (laid : types.LaidOut form members size align)
    (aligns : ∀ id ty, types.get? id = some ty -> 0 ≤ ty.size -> ty.align ∈ [1, 2, 4, 8])
    (declToken : Option Nat) :
    0 ≤ size ∧ types.EntryFits ⟨.aggregate form members, size, align, declToken⟩ := by
  have whole := laid
  obtain ⟨tys, typed, -, rfl, rfl, sizes⟩ := laid
  have known (ty : Ty) (own : ty ∈ tys) : ty.align ∈ [1, 2, 4, 8] := by
    have listed : some ty ∈ members.map fun member => types.get? member.ty :=
      typed ▸ List.mem_map_of_mem own
    obtain ⟨member, -, found⟩ := List.mem_map.mp listed
    exact aligns member.ty ty found (sizes ty own)
  have positive {align : Int} (known : align ∈ [1, 2, 4, 8]) : 0 < align := by
    simp only [List.mem_cons, List.not_mem_nil, or_false] at known
    omega
  have aligned := alignment_mem known
  have nonneg := extent_nonneg form fun ty own => ⟨sizes ty own, positive (known ty own)⟩
  refine ⟨Int.le_trans nonneg (Extent.le_roundUp _ (positive aligned)),
    ⟨aligned, Extent.roundUp_emod _ _, nofun, ?_⟩⟩
  rintro _ _ ⟨⟩
  exact whole

/-- The entries of types that have a size. -/
theorem exists_entries {fields : List Field}
    (sized : ∀ field ∈ fields, types.Sized field.ty) :
    ∃ tys : List Ty, fields.map (fun field => types.get? field.ty) = tys.map some ∧
      ∀ ty ∈ tys, 0 ≤ ty.size ∧ ∃ id, types.get? id = some ty := by
  induction fields with
  | nil => exact ⟨[], rfl, by simp⟩
  | cons field rest hypothesis =>
      obtain ⟨⟨ty, found, known⟩, others⟩ := List.forall_mem_cons.mp sized
      obtain ⟨tys, typed, sizes⟩ := hypothesis others
      exact ⟨ty :: tys, congrArg₂ List.cons found typed,
        List.forall_mem_cons.mpr ⟨⟨known, _, found⟩, sizes⟩⟩

namespace Consistent

/-- The entry of a completed type. -/
theorem complete_inv
    {id : TyId}
    {fields : List Field}
    (completed : types.complete id fields = .ok more) :
    ∃ form layout declToken, types.layout form fields = .ok layout ∧
      more = ⟨types.entries.setIfInBounds id.index
        ⟨.aggregate form layout.members, layout.size, layout.align, declToken⟩⟩ := by
  obtain ⟨ty, -, rest⟩ := bind_eq_ok.mp completed
  obtain ⟨layout, laid, same⟩ := bind_eq_ok.mp rest
  exact ⟨_, layout, ty.declToken, laid, (Except.ok.inj same).symm⟩

/-- Giving an open type an entry that fits leaves the others alone: nothing that has a
size contains the open type. -/
theorem close
    {id : TyId}
    {entry : Ty}
    (consistent : types.Consistent (id :: opened))
    (apart : id ∉ opened)
    (known : 0 ≤ entry.size)
    (fits : types.EntryFits entry)
    (own : more.get? id = some entry)
    (others : ∀ other, other ≠ id -> more.get? other = types.get? other) :
    more.Consistent opened ∧ types.Keeps more := by
  obtain ⟨old, found, unsized⟩ := consistent.unsized id List.mem_cons_self
  have keeps : types.Keeps more := by
    intro other ty here size
    rw [others, here]
    rintro rfl
    obtain rfl := Option.some.inj (here.symm.trans found)
    omega
  have cases {other : TyId} {ty : Ty} (here : more.get? other = some ty) :
      other = id ∧ ty = entry ∨ other ≠ id ∧ types.get? other = some ty := by
    by_cases same : other = id
    · subst same
      exact .inl ⟨rfl, Option.some.inj (here.symm.trans own)⟩
    · exact .inr ⟨same, (others other same).symm.trans here⟩
  refine ⟨⟨?_, ?_, ?_, ?_, ?_⟩, keeps⟩
  · intro other ty primitive
    have all : ∀ ty ∈ TypeTable.initial.entries, 0 ≤ ty.size := by decide
    exact keeps other ty (consistent.primitives other ty primitive)
      (all ty (Array.mem_of_getElem? primitive))
  · intro other member
    rw [others other fun same => apart (same ▸ member)]
    exact consistent.unsized other (List.mem_cons_of_mem id member)
  · intro other ty here none
    rcases cases here with ⟨-, rfl⟩ | ⟨differ, before⟩
    · omega
    · exact (List.mem_cons.mp (consistent.opened other ty before none)).resolve_left
        differ
  · intro other ty here size
    rcases cases here with ⟨-, rfl⟩ | ⟨-, before⟩
    · exact keeps.entryFits fits
    · exact keeps.entryFits (consistent.entries other ty before size)
  · rintro other ⟨ty, here, size⟩
    rcases cases here with ⟨rfl, rfl⟩ | ⟨-, before⟩
    · refine .intro other fun inner holds => ?_
      obtain ⟨_, reached, member⟩ := holds
      obtain rfl := Option.some.inj (reached.symm.trans own)
      exact consistent.founded_of_keeps keeps (fits.sized_of_mem_parts member)
    · exact consistent.founded_of_keeps keeps ⟨ty, before, size⟩

/-- Completing an open type with fields that have a size gives it one, and leaves the
others alone. -/
theorem complete
    {id : TyId}
    {fields : List Field}
    (consistent : types.Consistent (id :: opened))
    (apart : id ∉ opened)
    (sized : ∀ field ∈ fields, types.Sized field.ty)
    (completed : types.complete id fields = .ok more) :
    more.Consistent opened ∧ types.Keeps more := by
  have aligns (other : TyId) (ty : Ty) (found : types.get? other = some ty)
      (known : 0 ≤ ty.size) := (consistent.entries other ty found known).align
  obtain ⟨tys, typed, entries⟩ := exists_entries sized
  have sizes (ty : Ty) (own : ty ∈ tys) : 0 ≤ ty.size ∧ 0 < ty.align := by
    obtain ⟨known, other, found⟩ := entries ty own
    have align := aligns other ty found known
    simp only [List.mem_cons, List.not_mem_nil, or_false] at align
    exact ⟨known, by omega⟩
  obtain ⟨form, layout, declToken, laid, rfl⟩ := complete_inv completed
  obtain ⟨known, fits⟩ := (layout_rules typed sizes laid).fits aligns declToken
  obtain ⟨old, found, -⟩ := consistent.unsized id List.mem_cons_self
  obtain ⟨bound, -⟩ := Array.getElem?_eq_some_iff.mp found
  refine consistent.close apart known fits (by simp [get?, bound]) fun other differ => ?_
  have elsewhere : id.index ≠ other.index :=
    fun same => differ (congrArg TyId.mk same.symm)
  simp [get?, Array.getElem?_setIfInBounds_ne elsewhere]

/-- The table of the primitive types. -/
theorem initial : TypeTable.initial.Consistent [] := by
  have plain : ∀ ty ∈ TypeTable.initial.entries,
      0 ≤ ty.size ∧ ty.align ∈ [1, 2, 4, 8] ∧ ty.size % ty.align = 0 ∧
        ty.kind.parts = [] ∧ ty.isAggregate = false := by decide
  have known {id : TyId} {ty : Ty} (found : TypeTable.initial.get? id = some ty) :=
    plain ty (Array.mem_of_getElem? found)
  refine ⟨fun _ _ found => found, by simp, ?_, ?_, ?_⟩
  · intro id ty found unsized
    have := (known found).1
    omega
  · intro id ty found _
    obtain ⟨-, align, multiple, parts, scalar⟩ := known found
    refine ⟨align, multiple, fun base length kind => ?_, fun form members kind => ?_⟩
    · simp [kind, TyKind.parts] at parts
    · simp [Ty.isAggregate, kind] at scalar
  · rintro id -
    refine .intro id fun inner holds => ?_
    obtain ⟨ty, found, member⟩ := holds
    rw [(known found).2.2.2.1] at member
    cases member

/-! ## Tables without open types -/

/-- In a consistent table without open types every type has a size. -/
theorem size_nonneg (consistent : types.Consistent []) {id : TyId} {ty : Ty}
    (found : types.get? id = some ty) : 0 ≤ ty.size := by
  by_contra negative
  cases consistent.opened id ty found (by omega)

/-- In a consistent table without open types no type contains itself, through whatever
members and elements. -/
theorem not_holds_self (consistent : types.Consistent []) (id : TyId) :
    ¬Relation.TransGen types.Holds id id := by
  intro loop
  obtain ⟨inner, ⟨ty, found, -⟩, -⟩ := Relation.TransGen.head'_iff.mp loop
  have founded :=
    (consistent.founded id ⟨ty, found, consistent.size_nonneg found⟩).transGen
  clear found
  induction founded with
  | intro id _ hypothesis => exact hypothesis id (Relation.transGen_swap.mpr loop) loop

end Consistent
end TypeTable
end MiniC
