import MiniC.Proofs.Program.Rules
import MiniC.Proofs.Semantics.Expr

/-!
# Expressions in programs

`Reads` says which nodes of a program spell which expressions.  The parser makes the
conversion of an assigned value explicit; in the expression it is part of the assignment.

In a program that keeps the rules a node has the type of the expression that it spells.
-/

namespace MiniC
namespace Semantics

/-! ## The integer types in the table of types -/

namespace IntTy

/-- The place of an integer type in every table. -/
def id : IntTy -> TyId
  | bool => .bool
  | char => .char
  | short => .short
  | int => .int
  | long => .long

/-- The entry of an integer type. -/
def entry : IntTy -> Ty
  | bool => ⟨.bool, 1, 1, none⟩
  | char => ⟨.char, 1, 1, none⟩
  | short => ⟨.short, 2, 2, none⟩
  | int => ⟨.int, 4, 4, none⟩
  | long => ⟨.long, 8, 8, none⟩

@[simp] theorem entry_isInteger (ty : IntTy) : ty.entry.isInteger = true := by
  cases ty <;> rfl

@[simp] theorem entry_width (ty : IntTy) : ty.entry.width = ty.width := by
  cases ty <;> rfl

@[simp] theorem ofSize_entry (ty : IntTy) : Width.ofSize ty.entry.size = ty.width := by
  cases ty <;> decide

theorem entry_size (ty : IntTy) : ty.entry.size = ty.width.bytes := by
  cases ty <;> rfl

/-- The integer types are found in their places. -/
theorem get?_id {types : TypeTable} (sound : types.Sound) (ty : IntTy) :
    types.get? ty.id = some ty.entry := by
  apply sound.primitives
  cases ty <;> decide

/-- The type of arithmetic as the rules for nodes give it. -/
theorem joinTy_eq (left right : IntTy) :
    Program.joinTy left.id left.entry right.entry = (join left right).id := by
  cases left <;> cases right <;> decide

end IntTy

/-! ## Nodes as expressions -/

/-- The expression that a node spells. -/
inductive Reads (program : Program) : NodeId -> Expr -> Prop
  | literal {id node value}
      (found : program.node? id = some node)
      (kind : node.kind = .num value)
      (typed : node.ty = some (IntTy.ofLiteral value).id) :
      Reads program id (.literal value)
  | var {id node symbol entry ty}
      (found : program.node? id = some node)
      (kind : node.kind = .var symbol)
      (declared : program.symbol? symbol = some entry)
      (typed : entry.ty = ty.id) :
      Reads program id (.var ⟨symbol, ty⟩)
  | cast {id node operand ty expr}
      (found : program.node? id = some node)
      (kind : node.kind = .cast operand)
      (typed : node.ty = some ty.id)
      (inner : Reads program operand expr) :
      Reads program id (.cast ty expr)
  | unary {id node op operand expr}
      (found : program.node? id = some node)
      (kind : node.kind = .unary op operand)
      (inner : Reads program operand expr) :
      Reads program id (.unary op expr)
  | binary {id node op lhs rhs left right}
      (found : program.node? id = some node)
      (kind : node.kind = .binary op lhs rhs)
      (first : Reads program lhs left)
      (second : Reads program rhs right) :
      Reads program id (.binary op left right)
  | comma {id node lhs rhs left right}
      (found : program.node? id = some node)
      (kind : node.kind = .comma lhs rhs)
      (first : Reads program lhs left)
      (second : Reads program rhs right) :
      Reads program id (.comma left right)
  | assign {id node lhs rhs target conversion operand value}
      (found : program.node? id = some node)
      (kind : node.kind = .assign lhs rhs)
      (place : Reads program lhs (.var target))
      (converted : program.node? rhs = some conversion)
      (conversionKind : conversion.kind = .cast operand)
      (inner : Reads program operand value) :
      Reads program id (.assign target value)

section Typing

variable {program : Program}

/-- A node of an integer type, from what the rules say of its type. -/
theorem hasTy_of_typed
    {tokens : TokenStream}
    (sound : program.Sound tokens)
    {id : NodeId}
    {node : Node}
    {ty : IntTy}
    (found : program.node? id = some node)
    (typed : node.ty = some ty.id) :
    program.HasTy id ty.id ty.entry :=
  ⟨node, found, typed, ty.get?_id sound.types⟩

/-- A node has the type of the expression that it spells. -/
theorem Reads.hasTy
    {tokens : TokenStream}
    (sound : program.Sound tokens)
    {id : NodeId}
    {expr : Expr}
    (reads : Reads program id expr) :
    program.HasTy id expr.ty.id expr.ty.entry := by
  induction reads with
  | literal found _ typed => exact hasTy_of_typed sound found typed
  | var found kind declared typed =>
      obtain ⟨ty, nodeTyped, _, rule⟩ := (sound.nodes _ _ found).typed
      rw [kind] at rule
      obtain ⟨entry, there, rfl⟩ := rule
      rw [declared] at there
      cases there
      rw [typed] at nodeTyped
      exact hasTy_of_typed sound found nodeTyped
  | cast found _ typed _ _ => exact hasTy_of_typed sound found typed
  | @unary _ _ op _ expr found kind _ hypothesis =>
      obtain ⟨ty, nodeTyped, _, rule⟩ := (sound.nodes _ _ found).typed
      rw [kind] at rule
      apply hasTy_of_typed sound found
      rw [nodeTyped]
      cases op with
      | not => exact congrArg some rule.2
      | neg | bitNot =>
          obtain ⟨own, entry, operandTyped, _, rfl⟩ := rule
          obtain ⟨rfl, rfl⟩ := operandTyped.unique hypothesis
          exact congrArg some (IntTy.joinTy_eq _ _)
  | @binary _ _ op _ _ left right found kind _ _ first second =>
      obtain ⟨ty, nodeTyped, _, rule⟩ := (sound.nodes _ _ found).typed
      rw [kind] at rule
      apply hasTy_of_typed sound found
      rw [nodeTyped]
      unfold Expr.ty
      split
      · rename_i truth
        exact congrArg some (rule.eq_int truth)
      · rename_i number
        rw [rule.eq_joinTy (by simpa using number) first second (IntTy.entry_isInteger _)
          (IntTy.entry_isInteger _), IntTy.joinTy_eq]
  | comma found kind _ _ _ second =>
      obtain ⟨ty, nodeTyped, _, rule⟩ := (sound.nodes _ _ found).typed
      rw [kind] at rule
      obtain ⟨entry, rightTyped⟩ := rule
      obtain ⟨rfl, rfl⟩ := rightTyped.unique second
      exact hasTy_of_typed sound found nodeTyped
  | assign found kind _ _ _ _ first _ =>
      obtain ⟨ty, nodeTyped, _, rule⟩ := (sound.nodes _ _ found).typed
      rw [kind] at rule
      obtain ⟨_, _, leftTyped, _, _⟩ := rule
      obtain ⟨rfl, rfl⟩ := leftTyped.unique first
      exact hasTy_of_typed sound found nodeTyped

end Typing

end Semantics
end MiniC
