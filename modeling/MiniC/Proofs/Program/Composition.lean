import MiniC.Proofs.Program.Renaming

/-!
# Renamings one behind another

`Carried.Lawful` says that what holds references is carried as its references are.
Renamings that follow each other are carried like one, and a renaming that does not move
the references of a value leaves it as it is.
-/

namespace MiniC

namespace Renaming

/-- One renaming behind another. -/
def comp (outer inner : Renaming) : Renaming where
  ty := outer.ty ∘ inner.ty
  node := outer.node ∘ inner.node
  token := outer.token ∘ inner.token
  ty_injective := outer.ty_injective.comp inner.ty_injective
  node_injective := outer.node_injective.comp inner.node_injective
  ty_primitive := fun id primitive => by
    rw [Function.comp_apply, inner.ty_primitive id primitive,
      outer.ty_primitive id primitive]

/-- The renaming that only gives other places to tokens. -/
def moving (token : Nat -> Nat) : Renaming where
  ty := id
  node := id
  token := token
  ty_injective := Function.injective_id
  node_injective := Function.injective_id
  ty_primitive := fun _ _ => rfl

/-- The same references, with other places for tokens. -/
def placing (names : Renaming) (token : Nat -> Nat) :
    Renaming := { names with token := token }

end Renaming

/-- What is carried as its references are. -/
class Carried.Lawful (α : Type) [Carried α] : Prop where
  comp : ∀ (outer inner : Renaming) (value : α),
    carry (outer.comp inner) value = carry outer (carry inner value)
  /-- Only the references count, if tokens keep their places. -/
  steady : ∀ (names : Renaming) (token : Nat -> Nat) (value : α), names.token = id ->
    carry (names.placing token) value = carry (.moving token) value ->
    carry names value = value

export Carried.Lawful (comp steady)

namespace Carried.Lawful

instance : Lawful TyId := ⟨fun _ _ _ => rfl, fun _ _ _ _ same => same⟩

instance : Lawful NodeId := ⟨fun _ _ _ => rfl, fun _ _ _ _ same => same⟩

instance : Lawful Nat := ⟨fun _ _ _ => rfl, fun _ _ value still _ => congrFun still value⟩

instance : Lawful String := ⟨fun _ _ _ => rfl, fun _ _ _ _ _ => rfl⟩

section

variable {α β : Type} [Carried α] [Carried β] [Lawful α] [Lawful β]

instance : Lawful (Option α) where
  comp := fun outer inner value => by
    cases value with
    | none => rfl
    | some value => exact congrArg some (comp outer inner value)
  steady := fun names token value still same => by
    cases value with
    | none => rfl
    | some value =>
        exact congrArg some (steady names token value still (Option.some.inj same))

instance : Lawful (List α) where
  comp := fun outer inner _ =>
    (List.map_congr_left fun value _ => comp outer inner value).trans List.map_map.symm
  steady := fun names token _ still same =>
    (List.map_congr_left fun value member =>
      steady names token value still (List.map_inj_left.mp same value member)).trans
        (List.map_id _)

instance : Lawful (α × β) where
  comp := fun outer inner pair =>
    Prod.ext (comp outer inner pair.1) (comp outer inner pair.2)
  steady := fun names token pair still same =>
    Prod.ext (steady names token pair.1 still (congrArg Prod.fst same))
      (steady names token pair.2 still (congrArg Prod.snd same))

end

instance : Lawful Param where
  comp := fun outer inner ⟨ty, name⟩ =>
    congrArg₂ Param.mk (comp outer inner ty) (comp outer inner name)
  steady := fun names token ⟨ty, name⟩ still same =>
    congrArg₂ Param.mk (steady names token ty still (congrArg Param.ty same))
      (steady names token name still (congrArg Param.name same))

instance : Lawful Member where
  comp := fun outer inner ⟨_, ty, _, tok⟩ =>
    congrArg₂ (fun ty tok => Member.mk _ ty _ tok) (comp outer inner ty)
      (comp outer inner tok)
  steady := fun names token ⟨_, ty, _, tok⟩ still same =>
    congrArg₂ (fun ty tok => Member.mk _ ty _ tok)
      (steady names token ty still (congrArg Member.ty same))
      (steady names token tok still (congrArg Member.declToken same))

instance : Lawful TyKind where
  comp := fun outer inner kind => by
    cases kind with
    | ptr base => exact congrArg TyKind.ptr (comp outer inner base)
    | array base length => exact congrArg (TyKind.array · length) (comp outer inner base)
    | func result params =>
        exact congrArg₂ TyKind.func (comp outer inner result) (comp outer inner params)
    | aggregate form members =>
        exact congrArg (TyKind.aggregate form) (comp outer inner members)
    | _ => rfl
  steady := fun names token kind still same => by
    cases kind with
    | ptr base =>
        exact congrArg TyKind.ptr (steady names token base still (TyKind.ptr.inj same))
    | array base length =>
        exact congrArg (TyKind.array · length)
          (steady names token base still (TyKind.array.inj same).1)
    | func result params =>
        obtain ⟨sameResult, sameParams⟩ := TyKind.func.inj same
        exact congrArg₂ TyKind.func (steady names token result still sameResult)
          (steady names token params still sameParams)
    | aggregate form members =>
        exact congrArg (TyKind.aggregate form)
          (steady names token members still (TyKind.aggregate.inj same).2)
    | _ => rfl

instance : Lawful Ty where
  comp := fun outer inner ⟨kind, _, _, tok⟩ =>
    congrArg₂ (fun kind tok => Ty.mk kind _ _ tok) (comp outer inner kind)
      (comp outer inner tok)
  steady := fun names token ⟨kind, _, _, tok⟩ still same =>
    congrArg₂ (fun kind tok => Ty.mk kind _ _ tok)
      (steady names token kind still (congrArg Ty.kind same))
      (steady names token tok still (congrArg Ty.declToken same))

instance : Lawful NodeKind where
  comp := fun outer inner kind => by
    cases kind with
    | num | var | goto => rfl
    | unary op operand => exact congrArg (NodeKind.unary op) (comp outer inner operand)
    | binary op lhs rhs =>
        exact congrArg₂ (NodeKind.binary op) (comp outer inner lhs) (comp outer inner rhs)
    | assign lhs rhs =>
        exact congrArg₂ NodeKind.assign (comp outer inner lhs) (comp outer inner rhs)
    | comma lhs rhs =>
        exact congrArg₂ NodeKind.comma (comp outer inner lhs) (comp outer inner rhs)
    | member base aggregate index =>
        exact congrArg₂ (NodeKind.member · · index) (comp outer inner base)
          (comp outer inner aggregate)
    | addr operand => exact congrArg NodeKind.addr (comp outer inner operand)
    | deref operand => exact congrArg NodeKind.deref (comp outer inner operand)
    | cast operand => exact congrArg NodeKind.cast (comp outer inner operand)
    | call function args =>
        exact congrArg (NodeKind.call function) (comp outer inner args)
    | stmtExpr body => exact congrArg NodeKind.stmtExpr (comp outer inner body)
    | ret value => exact congrArg NodeKind.ret (comp outer inner value)
    | branch cond onTrue onFalse =>
        change NodeKind.branch _ _ _ = NodeKind.branch _ _ _
        rw [comp, comp, comp]
    | loop init cond step body =>
        change NodeKind.loop _ _ _ _ = NodeKind.loop _ _ _ _
        rw [comp, comp, comp, comp]
    | block body => exact congrArg NodeKind.block (comp outer inner body)
    | exprStmt expr => exact congrArg NodeKind.exprStmt (comp outer inner expr)
    | label name body => exact congrArg (NodeKind.label name) (comp outer inner body)
  steady := fun names token kind still same => by
    cases kind with
    | num | var | goto => rfl
    | unary op operand =>
        exact congrArg (NodeKind.unary op)
          (steady names token operand still (NodeKind.unary.inj same).2)
    | binary op lhs rhs =>
        obtain ⟨-, left, right⟩ := NodeKind.binary.inj same
        exact congrArg₂ (NodeKind.binary op) (steady names token lhs still left)
          (steady names token rhs still right)
    | assign lhs rhs =>
        obtain ⟨left, right⟩ := NodeKind.assign.inj same
        exact congrArg₂ NodeKind.assign (steady names token lhs still left)
          (steady names token rhs still right)
    | comma lhs rhs =>
        obtain ⟨left, right⟩ := NodeKind.comma.inj same
        exact congrArg₂ NodeKind.comma (steady names token lhs still left)
          (steady names token rhs still right)
    | member base aggregate index =>
        obtain ⟨first, second, -⟩ := NodeKind.member.inj same
        exact congrArg₂ (NodeKind.member · · index) (steady names token base still first)
          (steady names token aggregate still second)
    | addr operand =>
        exact congrArg NodeKind.addr
          (steady names token operand still (NodeKind.addr.inj same))
    | deref operand =>
        exact congrArg NodeKind.deref
          (steady names token operand still (NodeKind.deref.inj same))
    | cast operand =>
        exact congrArg NodeKind.cast
          (steady names token operand still (NodeKind.cast.inj same))
    | call function args =>
        exact congrArg (NodeKind.call function)
          (steady names token args still (NodeKind.call.inj same).2)
    | stmtExpr body =>
        exact congrArg NodeKind.stmtExpr
          (steady names token body still (NodeKind.stmtExpr.inj same))
    | ret value =>
        exact congrArg NodeKind.ret
          (steady names token value still (NodeKind.ret.inj same))
    | branch cond onTrue onFalse =>
        obtain ⟨first, second, third⟩ := NodeKind.branch.inj same
        change NodeKind.branch _ _ _ = NodeKind.branch _ _ _
        rw [steady names token cond still first, steady names token onTrue still second,
          steady names token onFalse still third]
    | loop init cond step body =>
        obtain ⟨first, second, third, fourth⟩ := NodeKind.loop.inj same
        change NodeKind.loop _ _ _ _ = NodeKind.loop _ _ _ _
        rw [steady names token init still first, steady names token cond still second,
          steady names token step still third, steady names token body still fourth]
    | block body =>
        exact congrArg NodeKind.block
          (steady names token body still (NodeKind.block.inj same))
    | exprStmt expr =>
        exact congrArg NodeKind.exprStmt
          (steady names token expr still (NodeKind.exprStmt.inj same))
    | label name body =>
        exact congrArg (NodeKind.label name)
          (steady names token body still (NodeKind.label.inj same).2)

instance : Lawful Function where
  comp := fun outer inner ⟨_, _, body, _⟩ =>
    congrArg (Function.mk _ _ · _) (comp outer inner body)
  steady := fun names token ⟨_, _, body, _⟩ still same =>
    congrArg (Function.mk _ _ · _)
      (steady names token body still (congrArg Function.body same))

instance : Lawful SymbolKind where
  comp := fun outer inner kind => by
    cases kind with
    | function defined => exact congrArg SymbolKind.function (comp outer inner defined)
    | _ => rfl
  steady := fun names token kind still same => by
    cases kind with
    | function defined =>
        exact congrArg SymbolKind.function
          (steady names token defined still (SymbolKind.function.inj same))
    | _ => rfl

instance : Lawful Symbol where
  comp := fun outer inner ⟨_, ty, _, kind⟩ =>
    congrArg₂ (fun ty kind => Symbol.mk _ ty _ kind) (comp outer inner ty)
      (comp outer inner kind)
  steady := fun names token ⟨_, ty, _, kind⟩ still same =>
    congrArg₂ (fun ty kind => Symbol.mk _ ty _ kind)
      (steady names token ty still (congrArg Symbol.ty same))
      (steady names token kind still (congrArg Symbol.kind same))

instance : Lawful Binding where
  comp := fun outer inner binding => by
    cases binding with
    | object symbol => rfl
    | typedef ty => exact congrArg Binding.typedef (comp outer inner ty)
    | enumConstant ty value =>
        exact congrArg (Binding.enumConstant · value) (comp outer inner ty)
  steady := fun names token binding still same => by
    cases binding with
    | object symbol => rfl
    | typedef ty =>
        exact congrArg Binding.typedef
          (steady names token ty still (Binding.typedef.inj same))
    | enumConstant ty value =>
        exact congrArg (Binding.enumConstant · value)
          (steady names token ty still (Binding.enumConstant.inj same).1)

instance : Lawful Frame where
  comp := fun outer inner ⟨vars, tags⟩ =>
    congrArg₂ Frame.mk (comp outer inner vars) (comp outer inner tags)
  steady := fun names token ⟨vars, tags⟩ still same =>
    congrArg₂ Frame.mk (steady names token vars still (congrArg Frame.vars same))
      (steady names token tags still (congrArg Frame.tags same))

instance : Lawful Scopes where
  comp := fun outer inner ⟨file, blocks⟩ =>
    congrArg₂ Scopes.mk (comp outer inner file) (comp outer inner blocks)
  steady := fun names token ⟨file, blocks⟩ still same =>
    congrArg₂ Scopes.mk (steady names token file still (congrArg Scopes.file same))
      (steady names token blocks still (congrArg Scopes.blocks same))

/-- A table of entries that only other places for tokens move. -/
theorem steady_map {α : Type} [Carried α] [Lawful α] {names : Renaming}
    {token : Nat -> Nat} {table : Array α} (still : names.token = id)
    (same : table.map (carry (names.placing token)) = table.map (carry (.moving token))) :
    table = table.map (carry names) := by
  apply Array.ext_getElem?
  intro index
  have entry := congrArg (·[index]?) same
  simp only [Array.getElem?_map] at entry ⊢
  cases found : table[index]? with
  | none => rfl
  | some value =>
      rw [found] at entry
      exact congrArg some (steady names token value still (Option.some.inj entry)).symm

end Carried.Lawful
end MiniC
