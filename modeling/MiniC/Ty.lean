import MiniC.Extent
import MiniC.Id
import MiniC.Width

/-!
# Types

Types are entries of a table and refer to each other by index, so that a struct
can mention itself through a pointer.  The primitive types have fixed places in
every table; every other type gets a new entry.

A struct or union is entered without its members, with size `-1`, and completed
later: `TypeTable.complete` is in `MiniC.Ty.Layout`.
-/

namespace MiniC

/-- The two ways to place the members of an aggregate. -/
inductive Form
  | struct
  | union
  deriving DecidableEq

/-- A function parameter: its type and the index of its name's token. -/
structure Param where
  ty : TyId
  name : Option Nat
  deriving DecidableEq

/-- A member of a struct or union with its place in it. -/
structure Member where
  name : String
  ty : TyId
  offset : Int
  declToken : Nat
  deriving DecidableEq

/-- The kinds of type. -/
inductive TyKind
  | void
  | bool
  | char
  | short
  | int
  | long
  | enum
  | ptr (base : TyId)
  | array (base : TyId) (length : Int)
  | func (result : TyId) (params : List Param)
  | aggregate (form : Form) (members : List Member)
  deriving DecidableEq

/-- A type with its size and alignment in bytes.  A negative size marks an
aggregate whose members are not known yet. -/
structure Ty where
  kind : TyKind
  size : Int
  align : Int
  declToken : Option Nat
  deriving DecidableEq

namespace Ty

/-- The integer types: `_Bool`, `char`, `short`, `int`, `long` and enums. -/
def isInteger (ty : Ty) : Bool :=
  match ty.kind with
  | .bool | .char | .short | .int | .long | .enum => true
  | _ => false

/-- Whether the type is `void`. -/
def isVoid (ty : Ty) : Bool :=
  match ty.kind with
  | .void => true
  | _ => false

/-- Whether the type is an enum. -/
def isEnum (ty : Ty) : Bool :=
  match ty.kind with
  | .enum => true
  | _ => false

/-- Whether the type is a pointer. -/
def isPointer (ty : Ty) : Bool :=
  match ty.kind with
  | .ptr _ => true
  | _ => false

/-- Whether the type is an array. -/
def isArray (ty : Ty) : Bool :=
  match ty.kind with
  | .array _ _ => true
  | _ => false

/-- Whether the type is a function. -/
def isFunction (ty : Ty) : Bool :=
  match ty.kind with
  | .func _ _ => true
  | _ => false

/-- Whether the type is a struct or union. -/
def isAggregate (ty : Ty) : Bool :=
  match ty.kind with
  | .aggregate _ _ => true
  | _ => false

/-- The pointee of a pointer or the element of an array. -/
def base? (ty : Ty) : Option TyId :=
  match ty.kind with
  | .ptr base => some base
  | .array base _ => some base
  | _ => none

/-- The members of a struct or union; other types have none. -/
def members (ty : Ty) : List Member :=
  match ty.kind with
  | .aggregate _ members => members
  | _ => []

/-- The width a value of the type is converted to.  What is not an integer is
converted as a full word. -/
def width (ty : Ty) : Width :=
  match ty.kind with
  | .bool | .char => .byte
  | .short => .word
  | .int | .enum => .dword
  | _ => .qword

end Ty

namespace TyId

/-- The type `void`. -/
def void : TyId := ⟨0⟩

/-- The type `_Bool`. -/
def bool : TyId := ⟨1⟩

/-- The type `char`. -/
def char : TyId := ⟨2⟩

/-- The type `short`. -/
def short : TyId := ⟨3⟩

/-- The type `int`. -/
def int : TyId := ⟨4⟩

/-- The type `long`. -/
def long : TyId := ⟨5⟩

end TyId

/-- All types of one program. -/
structure TypeTable where
  entries : Array Ty

namespace TypeTable

/-- The table of the primitive types. -/
def initial : TypeTable :=
  ⟨#[⟨.void, 1, 1, none⟩, ⟨.bool, 1, 1, none⟩, ⟨.char, 1, 1, none⟩,
    ⟨.short, 2, 2, none⟩, ⟨.int, 4, 4, none⟩, ⟨.long, 8, 8, none⟩]⟩

/-- The entry of a type. -/
def get? (types : TypeTable) (id : TyId) : Option Ty := types.entries[id.index]?

/-- Enter a new type. -/
def insert (types : TypeTable) (ty : Ty) : TyId × TypeTable :=
  (⟨types.entries.size⟩, ⟨types.entries.push ty⟩)

/-- Enter a pointer type. -/
def pointerTo (types : TypeTable) (base : TyId) : TyId × TypeTable :=
  types.insert ⟨.ptr base, 8, 8, none⟩

/-- Enter a function type. -/
def function (types : TypeTable) (result : TyId) (params : List Param) :
    TyId × TypeTable :=
  types.insert ⟨.func result params, 1, 1, none⟩

/-- Enter an enum type. -/
def enumeration (types : TypeTable) : TyId × TypeTable :=
  types.insert ⟨.enum, 4, 4, none⟩

/-- Enter a struct or union whose members are not known yet, so that its body
can refer to it. -/
def incomplete (types : TypeTable) (form : Form) (declToken : Nat) :
    TyId × TypeTable :=
  types.insert ⟨.aggregate form [], -1, 1, some declToken⟩

/-- A new type is found at the reference it was given. -/
@[simp] theorem get?_insert_self (types : TypeTable) (ty : Ty) :
    (types.insert ty).2.get? (types.insert ty).1 = some ty := by
  simp [insert, get?]

/-- Entering a type keeps the entries of the others. -/
theorem get?_insert_of_some
    {types : TypeTable}
    {id : TyId}
    {found : Ty}
    (present : types.get? id = some found)
    (ty : Ty) :
    (types.insert ty).2.get? id = some found := by
  unfold get? at present
  obtain ⟨bound, _⟩ := Array.getElem?_eq_some_iff.mp present
  simp only [insert, get?]
  rw [Array.getElem?_push_lt bound]
  simp_all

end TypeTable
end MiniC
