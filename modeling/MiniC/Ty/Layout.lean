import MiniC.Error
import MiniC.Ty

/-!
# Layout of arrays, structs and unions

An array is its element repeated.  The members of a struct follow each other,
each at the next multiple of its alignment; the members of a union all lie at
offset zero.  The size of either is a multiple of its alignment.  A layout fails
when a size leaves the range of `MiniC.Extent`.
-/

namespace MiniC

/-- Why a layout fails: a size out of range, or a reference without a target. -/
inductive LayoutError
  | sizeOverflow
  | fault (reason : Fault)
  deriving DecidableEq

/-- A declared member that has no place yet. -/
structure Field where
  name : String
  ty : TyId
  declToken : Nat
  deriving DecidableEq

/-- Placed members together with the size and alignment of the whole. -/
structure Layout where
  members : List Member
  size : Int
  align : Int
  deriving DecidableEq

namespace Layout

/-- A size in range, or the reason why there is none. -/
def sized : Option Int -> Except LayoutError Int
  | some size => .ok size
  | none => .error .sizeOverflow

/-- A size rounded up to a multiple of an alignment, which has to be positive. -/
def aligned (size align : Int) : Except LayoutError Int :=
  if 0 < align then sized (Extent.alignUp? size align)
  else .error (.fault .overflow)

end Layout

namespace Field

/-- The member that a field becomes at an offset. -/
def placedAt (field : Field) (offset : Int) : Member :=
  ⟨field.name, field.ty, offset, field.declToken⟩

end Field

namespace TypeTable

/-- The entry of a type that a layout refers to. -/
def entry (types : TypeTable) (id : TyId) : Except LayoutError Ty :=
  match types.get? id with
  | some ty => .ok ty
  | none => .error (.fault (.missing .types id.index))

/-- Enter an array type. -/
def arrayOf (types : TypeTable) (base : TyId) (length : Int) :
    Except LayoutError (TyId × TypeTable) := do
  let element ← types.entry base
  let size ← Layout.sized (Extent.mul? element.size length)
  return types.insert ⟨.array base length, size, element.align, none⟩

/-- Place the fields of a struct from an offset on, given the alignment of the
members before them. -/
def structFrom (types : TypeTable) :
    List Field -> Int -> Int -> Except LayoutError Layout
  | [], offset, align => do
      let size ← Layout.aligned offset align
      return ⟨[], size, align⟩
  | field :: rest, offset, align => do
      let ty ← types.entry field.ty
      let start ← Layout.aligned offset ty.align
      let stop ← Layout.sized (Extent.add? start ty.size)
      let layout ← types.structFrom rest stop (max align ty.align)
      return { layout with members := field.placedAt start :: layout.members }

/-- Place the fields of a union, given the size and alignment of the members
before them. -/
def unionFrom (types : TypeTable) :
    List Field -> Int -> Int -> Except LayoutError Layout
  | [], largest, align => do
      let size ← Layout.aligned largest align
      return ⟨[], size, align⟩
  | field :: rest, largest, align => do
      let ty ← types.entry field.ty
      let layout ← types.unionFrom rest (max largest ty.size) (max align ty.align)
      return { layout with members := field.placedAt 0 :: layout.members }

/-- The layout of the fields of an aggregate. -/
def layout (types : TypeTable) (form : Form) (fields : List Field) :
    Except LayoutError Layout :=
  match form with
  | .struct => types.structFrom fields 0 1
  | .union => types.unionFrom fields 0 1

/-- The form in which a type is completed.  What is not a union becomes a
struct. -/
def formOf (ty : Ty) : Form :=
  match ty.kind with
  | .aggregate form _ => form
  | _ => .struct

/-- Give a type its members.  Only the entry of that type changes. -/
def complete (types : TypeTable) (id : TyId) (fields : List Field) :
    Except LayoutError TypeTable := do
  let ty ← types.entry id
  let form := formOf ty
  let layout ← types.layout form fields
  let completed : Ty :=
    ⟨.aggregate form layout.members, layout.size, layout.align, ty.declToken⟩
  return ⟨types.entries.setIfInBounds id.index completed⟩

end TypeTable
end MiniC
