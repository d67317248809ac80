import MiniC.Proofs.Compile
import MiniC.Proofs.Simulation.Layout

/-!
# Members of variables

A chain of member accesses selects a part of a variable.  The part lies inside the
variable, as far behind its start as the offsets of the members say together, and apart
from all other members of the structs on the way.
-/

namespace MiniC

open Asm

/-! ## Chains of accesses -/

/-- The choice of a member in a struct or union. -/
structure Selection where
  owner : Ty
  index : Nat
  member : Member

namespace Selection

/-- How far several choices, the outermost first, lead into a variable. -/
def offset (path : List Selection) : Int := (path.map (·.member.offset)).sum

@[simp] theorem offset_nil : offset [] = 0 := rfl

@[simp] theorem offset_append (first second : List Selection) :
    offset (first ++ second) = offset first + offset second := by
  simp [offset]

@[simp] theorem offset_singleton (owner : Ty) (index : Nat) (member : Member) :
    offset [⟨owner, index, member⟩] = member.offset := by
  simp [offset]

end Selection

namespace Program

/-- A node that is a variable followed by member accesses. -/
inductive Selects (program : Program) : NodeId -> SymbolId -> List Selection -> Prop
  | var {id node symbol}
      (found : program.node? id = some node)
      (kind : node.kind = .var symbol) :
      Selects program id symbol []
  | member {id node base aggregate index owner member symbol path}
      (found : program.node? id = some node)
      (kind : node.kind = .member base aggregate index)
      (ownerFound : program.types.get? aggregate = some owner)
      (chosen : owner.members[index]? = some member)
      (inner : Selects program base symbol path) :
      Selects program id symbol (path ++ [⟨owner, index, member⟩])

namespace Selects

variable {program : Program} {tokens : TokenStream} {id : NodeId} {symbol : SymbolId}
  {path : List Selection} {entry : Symbol} {whole ty : Ty}

/-- The operand of a member access is the struct or union, and the access has the type of
the member. -/
theorem typing
    (sound : program.Sound tokens)
    {node : Node}
    {base : NodeId}
    {aggregate : TyId}
    {index : Nat}
    {owner : Ty}
    {member : Member}
    (found : program.node? id = some node)
    (kind : node.kind = .member base aggregate index)
    (ownerFound : program.types.get? aggregate = some owner)
    (chosen : owner.members[index]? = some member)
    (typed : program.nodeTy id = .ok ty) :
    program.nodeTy base = .ok owner ∧ program.types.get? member.ty = some ty := by
  obtain ⟨own, _, there, rule⟩ := exists_typing sound found typed
  rw [kind] at rule
  obtain ⟨other, selected, baseTyped, otherChosen, rfl⟩ := rule
  have same := Grammar.nodeTy_eq_ok baseTyped
  obtain ⟨_, _, _, otherFound⟩ := baseTyped
  obtain rfl := Option.some.inj (ownerFound.symm.trans otherFound)
  obtain rfl := Option.some.inj (chosen.symm.trans otherChosen)
  exact ⟨same, there⟩

/-- What is selected lies inside the variable. -/
theorem inside
    (sound : program.Sound tokens)
    (selects : program.Selects id symbol path)
    (declared : program.symbol? symbol = some entry)
    (wholeFound : program.types.get? entry.ty = some whole)
    (typed : program.nodeTy id = .ok ty) :
    0 ≤ Selection.offset path ∧ Selection.offset path + ty.size ≤ whole.size := by
  induction selects generalizing ty with
  | var found kind =>
      obtain ⟨own, _, there, rule⟩ := exists_typing sound found typed
      rw [kind] at rule
      obtain ⟨other, otherDeclared, rfl⟩ := rule
      obtain rfl := Option.some.inj (declared.symm.trans otherDeclared)
      obtain rfl := Option.some.inj (wholeFound.symm.trans there)
      simp
  | @member _ _ _ aggregate _ _ _ _ _ found kind ownerFound chosen _ hypothesis =>
      obtain ⟨baseTyped, memberFound⟩ := typing sound found kind ownerFound chosen typed
      obtain ⟨nonneg, inside⟩ := hypothesis declared baseTyped
      have rule := (sound.types.entries aggregate _ ownerFound).members
      have listed := List.mem_of_getElem? chosen
      have start := rule.nonneg _ listed
      obtain ⟨other, otherFound, _, stop⟩ := rule.inside _ listed
      obtain rfl := Option.some.inj (memberFound.symm.trans otherFound)
      rw [Selection.offset_append, Selection.offset_singleton]
      omega

/-- What is selected does not overlap another member of a struct on the way. -/
theorem apart
    (sound : program.Sound tokens)
    (selects : program.Selects id symbol path)
    (declared : program.symbol? symbol = some entry)
    (wholeFound : program.types.get? entry.ty = some whole)
    (typed : program.nodeTy id = .ok ty)
    {above below : List Selection}
    {step : Selection}
    (passed : path = above ++ step :: below)
    {members : List Member}
    (isStruct : step.owner.kind = .aggregate .struct members)
    {index : Nat}
    {other : Member}
    {otherTy : Ty}
    (listed : members[index]? = some other)
    (different : index ≠ step.index)
    (otherFound : program.types.get? other.ty = some otherTy) :
    0 ≤ Selection.offset above + other.offset ∧
      Selection.offset above + other.offset + otherTy.size ≤ whole.size ∧
      (Selection.offset path + ty.size ≤ Selection.offset above + other.offset ∨
        Selection.offset above + other.offset + otherTy.size ≤
          Selection.offset path) := by
  induction selects generalizing ty below with
  | var => simp at passed
  | @member _ _ _ aggregate position owner chosenMember _ inner found kind
    ownerFound chosen outer
      hypothesis =>
      obtain ⟨baseTyped, memberFound⟩ := typing sound found kind ownerFound chosen typed
      have around := outer.inside sound declared wholeFound baseTyped
      have rule := (sound.types.entries aggregate _ ownerFound).members
      have member := List.mem_of_getElem? chosen
      have start := rule.nonneg _ member
      obtain ⟨own, ownFound, _, stop⟩ := rule.inside _ member
      obtain rfl := Option.some.inj (memberFound.symm.trans ownFound)
      rw [Selection.offset_append, Selection.offset_singleton]
      rcases List.eq_nil_or_concat below with rfl | ⟨rest, last, rfl⟩
      · -- The last access chooses in the struct.
        obtain ⟨rfl, same⟩ := List.append_inj' passed rfl
        obtain rfl := (List.cons.inj same).1
        dsimp only at isStruct different
        have all : owner.members = members := by simp [Ty.members, isStruct]
        rw [all] at chosen
        have otherMember : other ∈ owner.members := all ▸ List.mem_of_getElem? listed
        have otherStart := rule.nonneg other otherMember
        obtain ⟨_, found, _, otherStop⟩ := rule.inside other otherMember
        obtain rfl := Option.some.inj (otherFound.symm.trans found)
        refine ⟨by omega, by omega, ?_⟩
        rcases Nat.lt_or_gt_of_ne different with earlier | later
        · obtain ⟨_, found, _, before⟩ := rule.endsBy_of_lt isStruct listed chosen earlier
          obtain rfl := Option.some.inj (otherFound.symm.trans found)
          exact .inr (by omega)
        · obtain ⟨_, found, _, behind⟩ := rule.endsBy_of_lt isStruct chosen listed later
          obtain rfl := Option.some.inj (memberFound.symm.trans found)
          exact .inl (by omega)
      · have divided : inner = above ++ step :: rest := by
          have shape : inner ++ [⟨owner, position, chosenMember⟩] =
              (above ++ step :: rest) ++ [last] := by
            rw [passed]
            simp
          exact (List.append_inj' shape rfl).1
        have earlier := hypothesis declared baseTyped divided
        omega

end Selects
end Program
end MiniC
