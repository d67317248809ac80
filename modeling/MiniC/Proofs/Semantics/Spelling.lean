import MiniC.Proofs.Semantics.Reading

/-!
# Enums in expressions

Objects of an enum type hold the numbers of `int`, and the code that loads, stores and
converts them is that of `int`.  `Spells` says which nodes of a program spell which
expressions when enums count as `int`.
-/

namespace MiniC

open Semantics

/-- The integer type whose numbers objects of a type hold. -/
def Ty.intTy? (ty : Ty) : Option IntTy :=
  match ty.kind with
  | .bool => some .bool
  | .char => some .char
  | .short => some .short
  | .int | .enum => some .int
  | .long => some .long
  | _ => none

/-- The integer type that values are converted to on the way to a type.  What is no
integer is converted as a full word. -/
def Ty.conversion (ty : Ty) : IntTy :=
  ty.intTy?.getD .long

/-- The integer type that values are converted to when a function returns them, if it
returns any. -/
def Ty.returned? (ty : Ty) : Option IntTy :=
  if ty.isVoid then none else some ty.conversion

/-- The integer type whose numbers objects of a type hold. -/
def Program.intTy? (program : Program) (id : TyId) : Option IntTy :=
  (program.types.get? id).bind (·.intTy?)

/-- A type whose objects hold the numbers of an integer type, and occupy as many bytes. -/
structure Ty.Holds (entry : Ty) (ty : IntTy) : Prop where
  counts : entry.intTy? = some ty
  size : entry.size = ty.width.bytes

/-- A type that counts as an integer type is that type, or an enum. -/
theorem Ty.kind_of_intTy? {entry : Ty} {ty : IntTy} (counts : entry.intTy? = some ty) :
    entry.kind = ty.entry.kind ∨ entry.kind = .enum ∧ ty = .int := by
  unfold intTy? at counts
  split at counts <;> cases counts <;> simp_all [IntTy.entry]

namespace Ty

variable {entry : Ty} {ty : IntTy}

theorem isInteger_of_intTy? (counts : entry.intTy? = some ty) :
    entry.isInteger = true := by
  unfold isInteger
  rcases kind_of_intTy? counts with kind | ⟨kind, _⟩
  · rw [kind]
    cases ty <;> rfl
  · rw [kind]

theorem width_of_intTy? (counts : entry.intTy? = some ty) : entry.width = ty.width := by
  unfold width
  rcases kind_of_intTy? counts with kind | ⟨kind, rfl⟩
  · rw [kind]
    cases ty <;> rfl
  · rw [kind]
    rfl

theorem isBool_iff_of_intTy? (counts : entry.intTy? = some ty) :
    entry.kind = .bool ↔ ty.entry.kind = .bool := by
  rcases kind_of_intTy? counts with kind | ⟨kind, rfl⟩
  · rw [kind]
  · rw [kind]
    decide

end Ty

namespace Semantics

variable {program : Program} {tokens : TokenStream}

theorem IntTy.intTy?_entry (ty : IntTy) : ty.entry.intTy? = some ty := by
  cases ty <;> rfl

theorem IntTy.intTy?_id (sound : program.types.Sound) (ty : IntTy) :
    program.intTy? ty.id = some ty := by
  rw [Program.intTy?, ty.get?_id sound]
  exact ty.intTy?_entry

/-- A type that counts as an integer type holds its numbers. -/
theorem holds_of_intTy?
    (sound : program.types.Sound)
    {id : TyId}
    {ty : IntTy}
    (counts : program.intTy? id = some ty) :
    ∃ entry, program.types.get? id = some entry ∧ entry.Holds ty := by
  obtain ⟨entry, found, own⟩ := Option.bind_eq_some_iff.mp counts
  refine ⟨entry, found, own, ?_⟩
  rw [sound.widths id entry found (Ty.isInteger_of_intTy? own), Ty.width_of_intTy? own]

/-- The type that joins two types that count as integer types. -/
theorem intTy?_joinTy
    (sound : program.types.Sound)
    {id : TyId}
    {left right : Ty}
    {leftTy rightTy : IntTy}
    (found : program.types.get? id = some left)
    (leftHolds : left.Holds leftTy)
    (rightHolds : right.Holds rightTy) :
    program.intTy? (Program.joinTy id left right) = some (.join leftTy rightTy) := by
  have leftInteger := Ty.isInteger_of_intTy? leftHolds.counts
  have rightInteger := Ty.isInteger_of_intTy? rightHolds.counts
  have long (ty : IntTy) :
      (ty.width.bytes : Int) = 8 ↔ ty = .long := by cases ty <;> decide
  simp only [Program.joinTy, leftInteger, rightInteger, leftHolds.size, rightHolds.size,
    Bool.true_eq_false, if_false, true_and, long, IntTy.join]
  split
  · exact IntTy.intTy?_id sound .long
  · split
    · exact IntTy.intTy?_id sound .int
    · rename_i notLong notNarrow
      have isInt : leftTy = .int := by
        cases leftTy with
        | bool | char | short => exact absurd (.inl (by decide)) notNarrow
        | int => rfl
        | long => exact absurd (.inl rfl) notLong
      rw [Program.intTy?, found, ← isInt]
      exact leftHolds.counts

/-! ## Nodes as expressions -/

/-- The expression that a node spells when enums count as `int`. -/
inductive Spells (program : Program) : NodeId -> Expr -> Prop
  | literal {id node own value}
      (found : program.node? id = some node)
      (kind : node.kind = .num value)
      (typed : node.ty = some own)
      (counts : program.intTy? own = some (.ofLiteral value)) :
      Spells program id (.literal value)
  | var {id node symbol entry ty}
      (found : program.node? id = some node)
      (kind : node.kind = .var symbol)
      (declared : program.symbol? symbol = some entry)
      (counts : program.intTy? entry.ty = some ty) :
      Spells program id (.var ⟨symbol, ty⟩)
  | cast {id node operand own ty expr}
      (found : program.node? id = some node)
      (kind : node.kind = .cast operand)
      (typed : node.ty = some own)
      (counts : program.intTy? own = some ty)
      (inner : Spells program operand expr) :
      Spells program id (.cast ty expr)
  | unary {id node op operand expr}
      (found : program.node? id = some node)
      (kind : node.kind = .unary op operand)
      (inner : Spells program operand expr) :
      Spells program id (.unary op expr)
  | binary {id node op lhs rhs left right}
      (found : program.node? id = some node)
      (kind : node.kind = .binary op lhs rhs)
      (first : Spells program lhs left)
      (second : Spells program rhs right) :
      Spells program id (.binary op left right)
  | comma {id node lhs rhs left right}
      (found : program.node? id = some node)
      (kind : node.kind = .comma lhs rhs)
      (first : Spells program lhs left)
      (second : Spells program rhs right) :
      Spells program id (.comma left right)
  | assign {id node lhs rhs target conversion operand value}
      (found : program.node? id = some node)
      (kind : node.kind = .assign lhs rhs)
      (place : Spells program lhs (.var target))
      (converted : program.node? rhs = some conversion)
      (conversionKind : conversion.kind = .cast operand)
      (inner : Spells program operand value) :
      Spells program id (.assign target value)

/-- Without enums nodes spell the same expressions. -/
theorem Reads.spells
    (sound : program.types.Sound)
    {id : NodeId}
    {expr : Expr}
    (reads : Reads program id expr) :
    Spells program id expr := by
  induction reads with
  | literal found kind typed => exact .literal found kind typed (IntTy.intTy?_id sound _)
  | var found kind declared typed =>
      exact .var found kind declared (by rw [typed]; exact IntTy.intTy?_id sound _)
  | cast found kind typed _ inner =>
      exact .cast found kind typed (IntTy.intTy?_id sound _) inner
  | unary found kind _ inner => exact .unary found kind inner
  | binary found kind _ _ first second => exact .binary found kind first second
  | comma found kind _ _ first second => exact .comma found kind first second
  | assign found kind _ converted conversionKind _ place inner =>
      exact .assign found kind place converted conversionKind inner

/-- A node whose type counts as an integer type. -/
def HasIntTy (program : Program) (id : NodeId) (ty : IntTy) : Prop :=
  ∃ own entry, program.HasTy id own entry ∧ entry.Holds ty

theorem hasIntTy_of_typed
    (sound : program.types.Sound)
    {id : NodeId}
    {node : Node}
    {own : TyId}
    {ty : IntTy}
    (found : program.node? id = some node)
    (typed : node.ty = some own)
    (counts : program.intTy? own = some ty) :
    HasIntTy program id ty := by
  obtain ⟨entry, there, holds⟩ := holds_of_intTy? sound counts
  exact ⟨own, entry, ⟨node, found, typed, there⟩, holds⟩

/-- A node has the type of the expression that it spells. -/
theorem Spells.hasIntTy
    (sound : program.Sound tokens)
    {id : NodeId}
    {expr : Expr}
    (spells : Spells program id expr) :
    HasIntTy program id expr.ty := by
  induction spells with
  | literal found _ typed counts => exact hasIntTy_of_typed sound.types found typed counts
  | var found kind declared counts =>
      obtain ⟨ty, nodeTyped, _, rule⟩ := (sound.nodes _ _ found).typed
      rw [kind] at rule
      obtain ⟨entry, there, rfl⟩ := rule
      obtain rfl := Option.some.inj (declared.symm.trans there)
      exact hasIntTy_of_typed sound.types found nodeTyped counts
  | cast found _ typed counts => exact hasIntTy_of_typed sound.types found typed counts
  | @unary _ _ op _ expr found kind _ hypothesis =>
      obtain ⟨ty, nodeTyped, _, rule⟩ := (sound.nodes _ _ found).typed
      rw [kind] at rule
      refine hasIntTy_of_typed sound.types found nodeTyped ?_
      cases op with
      | not =>
          rw [rule.2]
          exact IntTy.intTy?_id sound.types .int
      | neg | bitNot =>
          obtain ⟨own, entry, operandTyped, _, rfl⟩ := rule
          obtain ⟨_, _, typed, holds⟩ := hypothesis
          obtain ⟨rfl, rfl⟩ := operandTyped.unique typed
          obtain ⟨_, _, _, there⟩ := typed
          exact intTy?_joinTy sound.types there holds holds
  | @binary _ _ op _ _ left right found kind _ _ first second =>
      obtain ⟨ty, nodeTyped, _, rule⟩ := (sound.nodes _ _ found).typed
      rw [kind] at rule
      refine hasIntTy_of_typed sound.types found nodeTyped ?_
      unfold Expr.ty
      split
      · rename_i truth
        rw [rule.eq_int truth]
        exact IntTy.intTy?_id sound.types .int
      · rename_i number
        obtain ⟨_, _, leftTyped, leftHolds⟩ := first
        obtain ⟨_, _, rightTyped, rightHolds⟩ := second
        rw [rule.eq_joinTy (by simpa using number) leftTyped rightTyped
          (Ty.isInteger_of_intTy? leftHolds.counts)
            (Ty.isInteger_of_intTy? rightHolds.counts)]
        obtain ⟨_, _, _, there⟩ := leftTyped
        exact intTy?_joinTy sound.types there leftHolds rightHolds
  | comma found kind _ _ _ second =>
      obtain ⟨ty, nodeTyped, _, rule⟩ := (sound.nodes _ _ found).typed
      rw [kind] at rule
      obtain ⟨entry, rightTyped⟩ := rule
      obtain ⟨_, _, typed, holds⟩ := second
      obtain ⟨rfl, rfl⟩ := rightTyped.unique typed
      obtain ⟨_, _, _, there⟩ := typed
      exact ⟨_, _, ⟨_, found, nodeTyped, there⟩, holds⟩
  | assign found kind _ _ _ _ first _ =>
      obtain ⟨ty, nodeTyped, _, rule⟩ := (sound.nodes _ _ found).typed
      rw [kind] at rule
      obtain ⟨_, _, leftTyped, _, _⟩ := rule
      obtain ⟨_, _, typed, holds⟩ := first
      obtain ⟨rfl, rfl⟩ := leftTyped.unique typed
      obtain ⟨_, _, _, there⟩ := typed
      exact ⟨_, _, ⟨_, found, nodeTyped, there⟩, holds⟩

end Semantics
end MiniC
