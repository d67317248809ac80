import MiniC.Proofs.Emit.Emission
import MiniC.Proofs.Grammar.Moves
import MiniC.Proofs.Semantics.Spelling

/-!
# The code of integer expressions

`Compiled` relates an expression to its code, by one rule for each form of expression.
Nodes and the counters of the generator are gone: what the generator emits for a node is
related to the expression that the node spells.
-/

namespace MiniC
namespace Semantics

open Asm Emit

/-! ## What is emitted for a node of a kind -/

section Inversion

/-- The lines that push the value of a node of a kind, for the kinds that integer
expressions have. -/
def ValueRule (context : Context) (id : NodeId) (ty : Ty) (state : State) (code : Code)
    (after : State) : NodeKind -> Prop
  | .num number => code = instrs [.set .rax number] ++ instrs [.push .rax]
  | .var _ => ∃ place, Emits context (.address id) state place after ∧
      code = place ++ loadLines ty
  | .assign lhs rhs =>
      ∃ place middle value last, Emits context (.address lhs) state place middle ∧
      Emits context (.value rhs) middle value last ∧
      code = place ++ value ++ storeLines ty
  | .comma lhs rhs =>
      ∃ first middle second, Emits context (.value lhs) state first middle ∧
      Emits context (.value rhs) (middle.lift (-1)) second after ∧
      code = first ++ instrs [.pop .rax] ++ second
  | .cast operand => ∃ source inner, context.program.nodeTy operand = .ok source ∧
      Emits context (.value operand) state inner after ∧
      code = inner ++ convertLines source ty
  | .unary op operand => ∃ inner, Emits context (.value operand) state inner after ∧
      code = inner ++ topLines (unaryOperation op ty)
  | .binary .logAnd lhs rhs => ∃ left middle right,
      Emits context (.value lhs) state.numbered left middle ∧
      Emits context (.value rhs) (middle.lift (-1)) right after ∧
      code = shortCircuitLines .jumpEq .onFalse 0 1 state.nextLabel left right
  | .binary .logOr lhs rhs => ∃ left middle right,
      Emits context (.value lhs) state.numbered left middle ∧
      Emits context (.value rhs) (middle.lift (-1)) right after ∧
      code = shortCircuitLines .jumpNe .onTrue 1 0 state.nextLabel left right
  | .binary op lhs rhs =>
      ∃ left middle right last, Emits context (.value lhs) state left middle ∧
      Emits context (.value rhs) middle right last ∧
      code = left ++ right ++ instrs [.pop .rdi] ++ topLines (operation op ty)
  | _ => True

variable {context : Context} {state after : State} {code : Code}
    {id : NodeId} {node : Node}

/-- What is emitted for a node is given by its kind. -/
theorem valueRule_of_emits
    (found : context.program.node? id = some node)
    (emits : Emits context (.value id) state code after) :
    ∃ ty, context.program.nodeTy id = .ok ty ∧
      ValueRule context id ty state code after node.kind := by
  have same {other : Node} (there : context.program.node? id = some other) :
      other = node := by
    simpa [found] using there.symm
  cases emits with
  | num there typed kind =>
      rw [same there] at kind
      exact ⟨_, typed, by rw [kind]; exact rfl⟩
  | object there typed kind inner =>
      rw [same there] at kind
      rcases kind with ⟨symbol, kind⟩ | ⟨base, aggregate, index, kind⟩
      · exact ⟨_, typed, by rw [kind]; exact ⟨_, inner, rfl⟩⟩
      · exact ⟨_, typed, by rw [kind]; exact trivial⟩
  | deref there typed kind | addr there typed kind | stmtExpr there typed kind
  | call there typed kind =>
      rw [same there] at kind
      exact ⟨_, typed, by rw [kind]; exact trivial⟩
  | assign there typed kind left right =>
      rw [same there] at kind
      exact ⟨_, typed, by rw [kind]; exact ⟨_, _, _, _, left, right, rfl⟩⟩
  | comma there typed kind left right =>
      rw [same there] at kind
      exact ⟨_, typed, by rw [kind]; exact ⟨_, _, _, left, right, rfl⟩⟩
  | cast there typed kind operandTyped inner =>
      rw [same there] at kind
      exact ⟨_, typed, by rw [kind]; exact ⟨_, _, operandTyped, inner, rfl⟩⟩
  | unary there typed kind inner =>
      rw [same there] at kind
      exact ⟨_, typed, by rw [kind]; exact ⟨_, inner, rfl⟩⟩
  | logAnd there typed kind left right | logOr there typed kind left right =>
      rw [same there] at kind
      exact ⟨_, typed, by rw [kind]; exact ⟨_, _, _, left, right, rfl⟩⟩
  | @binary _ _ _ op _ _ _ _ _ _ _ there typed kind notAnd notOr left right =>
      rw [same there] at kind
      refine ⟨_, typed, ?_⟩
      rw [kind]
      cases op with
      | logAnd => exact absurd rfl notAnd
      | logOr => exact absurd rfl notOr
      | _ => exact ⟨_, _, _, _, left, right, rfl⟩

end Inversion

/-! ## Code by the form of expressions -/

/-- The instruction that finds the address of a variable. -/
inductive Addresses (program : Program) : SymbolId -> Instr -> Prop
  | onFrame {id symbol offset}
      (declared : program.symbol? id = some symbol)
      (place : symbol.kind = .localVar (some offset)) :
      Addresses program id (.frameAddress offset)
  | byName {id symbol}
      (declared : program.symbol? id = some symbol)
      (place : ∀ offset, symbol.kind ≠ .localVar offset) :
      Addresses program id (.symbolAddress symbol.name)

/-- The code of an expression. -/
inductive Compiled (program : Program) : Expr -> Code -> Prop
  | literal {value} :
      Compiled program (.literal value) (instrs [.set .rax value] ++ instrs [.push .rax])
  | var {target finder}
      (finds : Addresses program target.id finder) :
      Compiled program (.var target)
        (instrs [finder] ++ instrs [.push .rax] ++ loadLines target.ty.entry)
  | cast {ty operand code}
      (inner : Compiled program operand code) :
      Compiled program (.cast ty operand) (code ++ convertLines operand.ty.entry ty.entry)
  | unary {op operand code}
      (inner : Compiled program operand code) :
      Compiled program (.unary op operand)
        (code ++ topLines (unaryOperation op (Expr.unary op operand).ty.entry))
  | logAnd {lhs rhs left right number}
      (first : Compiled program lhs left)
      (second : Compiled program rhs right) :
      Compiled program (.binary .logAnd lhs rhs)
        (shortCircuitLines .jumpEq .onFalse 0 1 number left right)
  | logOr {lhs rhs left right number}
      (first : Compiled program lhs left)
      (second : Compiled program rhs right) :
      Compiled program (.binary .logOr lhs rhs)
        (shortCircuitLines .jumpNe .onTrue 1 0 number left right)
  | binary {op lhs rhs left right}
      (notAnd : op ≠ .logAnd)
      (notOr : op ≠ .logOr)
      (first : Compiled program lhs left)
      (second : Compiled program rhs right) :
      Compiled program (.binary op lhs rhs)
        (left ++ right ++ instrs [.pop .rdi]
          ++ topLines (operation op (Expr.binary op lhs rhs).ty.entry))
  | comma {lhs rhs left right}
      (first : Compiled program lhs left)
      (second : Compiled program rhs right) :
      Compiled program (.comma lhs rhs) (left ++ instrs [.pop .rax] ++ right)
  | assign {target value finder code}
      (finds : Addresses program target.id finder)
      (inner : Compiled program value code) :
      Compiled program (.assign target value)
        (instrs [finder] ++ instrs [.push .rax]
          ++ (code ++ convertLines value.ty.entry target.ty.entry)
          ++ storeLines target.ty.entry)

section Lines

variable {entry other : Ty} {ty otherTy : IntTy}

/-! The lines for a type that counts as an integer type are those of the integer type. -/

theorem loadLines_eq (holds : entry.Holds ty) : loadLines entry = loadLines ty.entry := by
  have byValue : isByAddress entry = isByAddress ty.entry := by
    unfold isByAddress Ty.isArray Ty.isAggregate Ty.isFunction
    rcases Ty.kind_of_intTy? holds.counts with kind | ⟨kind, rfl⟩ <;> rw [kind]
    rfl
  rw [loadLines, loadLines, byValue, holds.size, IntTy.entry_size]

theorem storeLines_eq (holds : entry.Holds ty) :
    storeLines entry = storeLines ty.entry := by
  have scalar : entry.isAggregate = ty.entry.isAggregate := by
    rw [Ty.isAggregate_of_isInteger (Ty.isInteger_of_intTy? holds.counts),
      Ty.isAggregate_of_isInteger ty.entry_isInteger]
  rw [storeLines, storeLines, storeInstrs, storeInstrs, scalar, holds.size,
    IntTy.entry_size]

theorem convertLines_conversion (holds : entry.Holds ty) (valued : other.isVoid = false) :
    convertLines entry other = convertLines ty.entry other.conversion.entry := by
  have isBool : other.kind = .bool ↔ other.conversion.entry.kind = .bool := by
    unfold Ty.conversion Ty.intTy?
    cases other.kind <;> simp [IntTy.entry]
  have width : other.width = other.conversion.width := by
    unfold Ty.conversion Ty.intTy? Ty.width
    cases other.kind <;> rfl
  have conversionValued : other.conversion.entry.isVoid = false := by
    cases other.conversion <;> rfl
  simp only [convertLines, valued, conversionValued, isBool, width,
    Ty.width_of_intTy? holds.counts, IntTy.entry_width]

theorem convertLines_eq (holds : entry.Holds ty) (goal : other.Holds otherTy) :
    convertLines entry other = convertLines ty.entry otherTy.entry := by
  have valued : other.isVoid = false := by
    unfold Ty.isVoid
    rcases Ty.kind_of_intTy? goal.counts with kind | ⟨kind, rfl⟩ <;> rw [kind]
    cases otherTy <;> rfl
  rw [convertLines_conversion holds valued, Ty.conversion, goal.counts]
  rfl

theorem narrow_eq (holds : entry.Holds ty) : narrow entry = narrow ty.entry := by
  have isBool : (entry.kind != .bool) = (ty.entry.kind != .bool) := by
    rw [Bool.eq_iff_iff, bne_iff_ne, bne_iff_ne, ne_eq, ne_eq,
      Ty.isBool_iff_of_intTy? holds.counts]
  rw [narrow, narrow, isBool, Ty.isInteger_of_intTy? holds.counts, ty.entry_isInteger,
    Ty.width_of_intTy? holds.counts, IntTy.entry_width]

theorem operation_eq (holds : entry.Holds ty) (op : BinaryOp) :
    operation op entry = operation op ty.entry := by
  cases op <;> simp only [operation, narrow_eq holds]

theorem unaryOperation_eq (holds : entry.Holds ty) (op : UnaryOp) :
    unaryOperation op entry = unaryOperation op ty.entry := by
  cases op <;> simp only [unaryOperation, narrow_eq holds]

end Lines

section Emitted

variable {tokens : TokenStream} {context : Context}

/-- The lines emitted for the address of a variable. -/
theorem addresses_of_emits
    {id : NodeId}
    {target : Variable}
    {state after : State}
    {code : Code}
    (spells : Spells context.program id (.var target))
    (emits : Emits context (.address id) state code after) :
    ∃ finder, Addresses context.program target.id finder ∧
      code = instrs [finder] ++ instrs [.push .rax] := by
  cases spells with
  | var found kind declared counts =>
      cases emits with
      | localAddress there otherKind otherDeclared place =>
          obtain rfl := Option.some.inj (found.symm.trans there)
          rw [kind] at otherKind
          cases otherKind
          exact ⟨_, .onFrame otherDeclared place, rfl⟩
      | globalAddress there otherKind otherDeclared place =>
          obtain rfl := Option.some.inj (found.symm.trans there)
          rw [kind] at otherKind
          cases otherKind
          exact ⟨_, .byName otherDeclared place, rfl⟩
      | derefAddress there otherKind | memberAddress there otherKind =>
          obtain rfl := Option.some.inj (found.symm.trans there)
          rw [kind] at otherKind
          cases otherKind

/-- The type that the generator finds for a node holds the numbers of its expression. -/
theorem holds_of_spells
    (sound : context.program.Sound tokens)
    {id : NodeId}
    {expr : Expr}
    {ty : Ty}
    (spells : Spells context.program id expr)
    (typed : context.program.nodeTy id = .ok ty) :
    ty.Holds expr.ty := by
  obtain ⟨_, entry, has, holds⟩ := spells.hasIntTy sound
  rw [Grammar.nodeTy_eq_ok has] at typed
  obtain rfl := Except.ok.inj typed
  exact holds

/-- What the generator emits for a node is the code of the expression that the node
spells. -/
theorem Compiled.of_spells
    (sound : context.program.Sound tokens)
    {id : NodeId}
    {expr : Expr}
    {state after : State}
    {code : Code}
    (spells : Spells context.program id expr)
    (emits : Emits context (.value id) state code after) :
    Compiled context.program expr code := by
  induction spells generalizing state after code with
  | literal found kind =>
      obtain ⟨_, _, rule⟩ := valueRule_of_emits found emits
      rw [kind] at rule
      rw [rule]
      exact .literal
  | var found kind declared counts =>
      have spells := Spells.var found kind declared counts
      obtain ⟨ty, nodeTyped, rule⟩ := valueRule_of_emits found emits
      rw [kind] at rule
      obtain ⟨place, placed, rfl⟩ := rule
      obtain ⟨finder, finds, rfl⟩ := addresses_of_emits spells placed
      rw [loadLines_eq (holds_of_spells sound spells nodeTyped)]
      exact .var finds
  | cast found kind typed counts inner hypothesis =>
      obtain ⟨ty, nodeTyped, rule⟩ := valueRule_of_emits found emits
      rw [kind] at rule
      obtain ⟨source, code, operandTyped, operand, rfl⟩ := rule
      rw [convertLines_eq (holds_of_spells sound inner operandTyped)
        (holds_of_spells sound (.cast found kind typed counts inner) nodeTyped)]
      exact .cast (hypothesis operand)
  | unary found kind inner hypothesis =>
      obtain ⟨ty, nodeTyped, rule⟩ := valueRule_of_emits found emits
      rw [kind] at rule
      obtain ⟨code, operand, rfl⟩ := rule
      rw [unaryOperation_eq (holds_of_spells sound (.unary found kind inner) nodeTyped)]
      exact .unary (hypothesis operand)
  | @binary _ _ op _ _ _ _ found kind first second left right =>
      obtain ⟨ty, nodeTyped, rule⟩ := valueRule_of_emits found emits
      rw [kind] at rule
      have holds := holds_of_spells sound (.binary found kind first second) nodeTyped
      by_cases isAnd : op = .logAnd
      · subst isAnd
        obtain ⟨_, _, _, lhs, rhs, rfl⟩ := rule
        exact .logAnd (left lhs) (right rhs)
      · by_cases isOr : op = .logOr
        · subst isOr
          obtain ⟨_, _, _, lhs, rhs, rfl⟩ := rule
          exact .logOr (left lhs) (right rhs)
        · rw [ValueRule] at rule
          · obtain ⟨_, _, _, _, lhs, rhs, rfl⟩ := rule
            rw [operation_eq holds]
            exact .binary isAnd isOr (left lhs) (right rhs)
          · exact isAnd
          · exact isOr
  | comma found kind first second left right =>
      obtain ⟨ty, _, rule⟩ := valueRule_of_emits found emits
      rw [kind] at rule
      obtain ⟨_, _, _, lhs, rhs, rfl⟩ := rule
      exact .comma (left lhs) (right rhs)
  | @assign _ _ _ _ target _ _ _ found kind place converted conversionKind
    inner _ hypothesis =>
      obtain ⟨ty, nodeTyped, rule⟩ := valueRule_of_emits found emits
      rw [kind] at rule
      obtain ⟨_, _, _, _, lhs, rhs, rfl⟩ := rule
      obtain ⟨finder, finds, rfl⟩ := addresses_of_emits place lhs
      have holds : ty.Holds target.ty :=
        holds_of_spells sound
          (.assign found kind place converted conversionKind inner) nodeTyped
      -- The value is a conversion to the type of the assignment.
      obtain ⟨goal, goalTyped, conversion⟩ := valueRule_of_emits converted rhs
      rw [conversionKind] at conversion
      obtain ⟨source, code, operandTyped, operand, rfl⟩ := conversion
      obtain ⟨own, ownTyped, _, typing⟩ := (sound.nodes _ _ found).typed
      rw [kind] at typing
      obtain ⟨_, _, leftTyped, rightTyped, _⟩ := typing
      have goalHolds : goal.Holds target.ty := by
        obtain ⟨_, _, placeTyped, placeHolds⟩ := place.hasIntTy sound
        obtain ⟨rfl, rfl⟩ := leftTyped.unique placeTyped
        rw [Grammar.nodeTy_eq_ok rightTyped] at goalTyped
        obtain rfl := Except.ok.inj goalTyped
        obtain ⟨_, _, _, there⟩ := rightTyped
        obtain ⟨_, _, _, placeThere⟩ := placeTyped
        obtain rfl := Option.some.inj (there.symm.trans placeThere)
        exact placeHolds
      rw [storeLines_eq holds,
        convertLines_eq (holds_of_spells sound inner operandTyped) goalHolds]
      exact .assign finds (hypothesis operand)

/-- What the generator emits for a node is the code of the expression that is read from
the node. -/
theorem Compiled.of_emits
    (sound : context.program.Sound tokens)
    {id : NodeId}
    {expr : Expr}
    {state after : State}
    {code : Code}
    (reads : Reads context.program id expr)
    (emits : Emits context (.value id) state code after) :
    Compiled context.program expr code :=
  .of_spells sound (reads.spells sound.types) emits

end Emitted

end Semantics
end MiniC
