import MiniC.Proofs.Precedence.Cursor

/-!
# The structure of types

A table has many entries for types of the same structure: every declarator enters its own.
A `Shape` is such a structure over types that a table has already, and `Shape.Denotes`
says that an entry of a longer table has it.  An entry keeps its structure when more types
are entered.
-/

namespace MiniC

/-- A table with entries behind those of another. -/
def TypeTable.Extends (old new : TypeTable) : Prop :=
  ∀ id ty, old.get? id = some ty -> new.get? id = some ty

namespace TypeTable.Extends

variable {old middle new : TypeTable}

theorem refl (types : TypeTable) : types.Extends types := fun _ _ found => found

theorem trans (first : old.Extends middle) (second : middle.Extends new) :
    old.Extends new :=
  fun id ty found => second id ty (first id ty found)

theorem insert (types : TypeTable) (ty : Ty) : types.Extends (types.insert ty).2 :=
  fun _ _ found => get?_insert_of_some found ty

end TypeTable.Extends

namespace Declarators

open Precedence

mutual

/-- The structure of a type. -/
inductive Shape
  /-- A type that is there already. -/
  | given (id : TyId)
  | pointer (target : Shape)
  | array (element : Shape) (length : Nat)
  | function (result : Shape) (params : Shapes)

/-- The structures of parameters with their names. -/
inductive Shapes
  | nil
  | cons (name : Option Identifier) (shape : Shape) (rest : Shapes)

end

/-- A parameter has the name that stands at the given index, if any. -/
def Names (tokens : TokenStream) : Option Identifier -> Option Nat -> Prop
  | none, none => True
  | some name, some index => (tokens.get index).Is (.name name)
  | _, _ => False

namespace Shape

/-- The size of a type of a structure, however large.  Types that are there have the sizes
that a table gives them. -/
def size (known : TypeTable) : Shape -> Int
  | given id => ((known.get? id).map (·.size)).getD 0
  | pointer _ => 8
  | array element length => element.size known * length
  | function _ _ => 1

/-- The structure of a parameter declared with a structure: arrays become pointers to
their elements. -/
def decayed (known : TypeTable) : Shape -> Shape
  | given id =>
      match (known.get? id).map Ty.kind with
      | some (.array base _) => pointer (given base)
      | _ => given id
  | array element _ => pointer element
  | pointer target => pointer target
  | function result params => function result params

/-- Stars applied to a structure. -/
def pointers : Nat -> Shape -> Shape
  | 0, shape => shape
  | stars + 1, shape => pointers stars (pointer shape)

end Shape

mutual

/-- An entry of a table has a structure over the types of a table known before. -/
def Shape.Denotes (known : TypeTable) (tokens : TokenStream) (types : TypeTable) :
    Shape -> TyId -> Prop
  | .given other, id => id = other ∧ known.Has other
  | .pointer target, id =>
      ∃ inner, types.get? id = some ⟨.ptr inner, 8, 8, none⟩ ∧
        target.Denotes known tokens types inner
  | .array element length, id =>
      ∃ inner ty, types.get? inner = some ty ∧
        types.get? id = some ⟨.array inner length, ty.size * length, ty.align, none⟩ ∧
        element.Denotes known tokens types inner
  | .function result params, id =>
      ∃ inner list, types.get? id = some ⟨.func inner list, 1, 1, none⟩ ∧
        result.Denotes known tokens types inner ∧ params.Denote known tokens types list

/-- Parameters have structures and names. -/
def Shapes.Denote (known : TypeTable) (tokens : TokenStream) (types : TypeTable) :
    Shapes -> List Param -> Prop
  | .nil, list => list = []
  | .cons name shape rest, list =>
      ∃ param more, list = param :: more ∧ Names tokens name param.name ∧
        shape.Denotes known tokens types param.ty ∧ rest.Denote known tokens types more

end

section Denotes

variable {known old new types : TypeTable} {tokens : TokenStream}

mutual

/-- An entry keeps its structure in a longer table. -/
theorem Shape.Denotes.mono (longer : old.Extends new) :
    ∀ {shape : Shape} {id : TyId},
      shape.Denotes known tokens old id -> shape.Denotes known tokens new id
  | .given _, _, same => same
  | .pointer _, _, ⟨inner, found, target⟩ => ⟨inner, longer _ _ found, target.mono longer⟩
  | .array _ _, _, ⟨inner, ty, there, found, element⟩ =>
      ⟨inner, ty, longer _ _ there, longer _ _ found, element.mono longer⟩
  | .function _ _, _, ⟨inner, list, found, result, params⟩ =>
      ⟨inner, list, longer _ _ found, result.mono longer, params.mono longer⟩

theorem Shapes.Denote.mono (longer : old.Extends new) :
    ∀ {shapes : Shapes} {list : List Param},
      shapes.Denote known tokens old list -> shapes.Denote known tokens new list
  | .nil, _, empty => empty
  | .cons _ _ _, _, ⟨param, more, list, named, shape, rest⟩ =>
      ⟨param, more, list, named, shape.mono longer, rest.mono longer⟩

end

/-- The entry of a structure has its size. -/
theorem Shape.Denotes.entry (longer : known.Extends types) :
    ∀ {shape : Shape} {id : TyId}, shape.Denotes known tokens types id ->
      ∃ ty, types.get? id = some ty ∧ ty.size = shape.size known
  | .given _, _, ⟨rfl, has⟩ => by
      obtain ⟨ty, found⟩ := TypeTable.has_iff.mp has
      exact ⟨ty, longer _ _ found, by simp [Shape.size, found]⟩
  | .pointer _, _, ⟨_, found, _⟩ => ⟨_, found, rfl⟩
  | .array _ length, _, ⟨_, ty, there, found, element⟩ => by
      obtain ⟨other, same, size⟩ := element.entry longer
      obtain rfl := Option.some.inj (there.symm.trans same)
      exact ⟨_, found, congrArg (· * (length : Int)) size⟩
  | .function _ _, _, ⟨_, _, found, _⟩ => ⟨_, found, rfl⟩

/-- What the entry of a parameter's type makes of it. -/
theorem Shape.Denotes.decays
    (sound : known.Sound)
    (longer : known.Extends types)
    {shape : Shape}
    {id : TyId}
    {ty : Ty}
    (denotes : shape.Denotes known tokens types id)
    (found : types.get? id = some ty) :
    (∃ base length target, ty.kind = .array base length ∧
      shape.decayed known = .pointer target ∧ target.Denotes known tokens types base) ∨
    (∀ base length, ty.kind ≠ .array base length) ∧ shape.decayed known = shape := by
  cases shape with
  | given other =>
      obtain ⟨rfl, has⟩ := denotes
      obtain ⟨entry, there⟩ := TypeTable.has_iff.mp has
      obtain rfl := Option.some.inj ((longer _ _ there).symm.trans found)
      cases kind : entry.kind with
      | array base length =>
          have inside : known.Has base :=
            sound.refs _ _ there base (by simp [kind, TyKind.refs])
          refine .inl ⟨base, length, .given base, rfl, ?_, rfl, inside⟩
          simp [Shape.decayed, there, kind]
      | _ => exact .inr ⟨by simp, by simp [Shape.decayed, there, kind]⟩
  | pointer target =>
      obtain ⟨inner, there, -⟩ := denotes
      obtain rfl := Option.some.inj (there.symm.trans found)
      exact .inr ⟨by simp, rfl⟩
  | array element length =>
      obtain ⟨inner, entry, -, there, target⟩ := denotes
      obtain rfl := Option.some.inj (there.symm.trans found)
      exact .inl ⟨inner, length, element, rfl, rfl, target⟩
  | function result params =>
      obtain ⟨inner, list, there, -⟩ := denotes
      obtain rfl := Option.some.inj (there.symm.trans found)
      exact .inr ⟨by simp, rfl⟩

end Denotes
end Declarators
end MiniC
