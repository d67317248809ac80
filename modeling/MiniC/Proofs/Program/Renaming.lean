import Mathlib.Logic.Function.Basic
import MiniC.Program.Frame
import MiniC.Proofs.Program.Growth

/-!
# Programs under other references

The references of a program to its types and nodes only say where these stand in its
tables.  A renaming gives other references, and other places to the tokens that types
remember.  `carry` applies it to whatever holds references.

`Program.Renames` says of two programs that what stands in the tables of the first stands,
renamed, in those of the second.  Where an expression stood in the source text does not
matter, but statements are on the same lines.  A program that is renamed answers every
question about its entries by the renamed answer, and its frames are laid out alike.
-/

namespace MiniC

/-- Other references for types and nodes, and other places for tokens.  Different entries
keep different references, and the primitive types keep their own. -/
structure Renaming where
  ty : TyId -> TyId
  node : NodeId -> NodeId
  token : Nat -> Nat
  ty_injective : Function.Injective ty
  node_injective : Function.Injective node
  ty_primitive : ∀ id : TyId, id.index < TypeTable.initial.entries.size -> ty id = id

/-- What holds references, and so can be renamed.  A number is the index of a token. -/
class Carried (α : Type) where
  /-- The value under other references. -/
  carry : Renaming -> α -> α

export Carried (carry)

instance : Carried TyId := ⟨Renaming.ty⟩

instance : Carried NodeId := ⟨Renaming.node⟩

instance : Carried Nat := ⟨Renaming.token⟩

instance : Carried SymbolId := ⟨fun _ id => id⟩

instance : Carried Bool := ⟨fun _ flag => flag⟩

instance : Carried Unit := ⟨fun _ value => value⟩

instance : Carried String := ⟨fun _ text => text⟩

instance : Carried Int := ⟨fun _ number => number⟩

section

variable {α β : Type} [Carried α] [Carried β]

instance : Carried (Option α) := ⟨fun names => Option.map (carry names)⟩

instance : Carried (List α) := ⟨fun names => List.map (carry names)⟩

instance : Carried (α × β) := ⟨fun names pair => (carry names pair.1, carry names pair.2)⟩

end

instance :
    Carried Param := ⟨fun names param => ⟨carry names param.ty, carry names param.name⟩⟩

instance : Carried Member :=
  ⟨fun names member =>
    ⟨member.name, carry names member.ty, member.offset, carry names member.declToken⟩⟩

instance : Carried Field :=
  ⟨fun names field => ⟨field.name, carry names field.ty, carry names field.declToken⟩⟩

instance : Carried Layout :=
  ⟨fun names layout => { layout with members := carry names layout.members }⟩

/-- The kind of type under other references. -/
def TyKind.carried (names : Renaming) : TyKind -> TyKind
  | .ptr base => .ptr (carry names base)
  | .array base length => .array (carry names base) length
  | .func result params => .func (carry names result) (carry names params)
  | .aggregate form members => .aggregate form (carry names members)
  | kind => kind

instance : Carried TyKind := ⟨TyKind.carried⟩

instance : Carried Ty :=
  ⟨fun names ty => ⟨carry names ty.kind, ty.size, ty.align, carry names ty.declToken⟩⟩

/-- The kind of node under other references. -/
def NodeKind.carried (names : Renaming) : NodeKind -> NodeKind
  | .num value => .num value
  | .var symbol => .var symbol
  | .unary op operand => .unary op (carry names operand)
  | .binary op lhs rhs => .binary op (carry names lhs) (carry names rhs)
  | .assign lhs rhs => .assign (carry names lhs) (carry names rhs)
  | .comma lhs rhs => .comma (carry names lhs) (carry names rhs)
  | .member base aggregate index =>
      .member (carry names base) (carry names aggregate) index
  | .addr operand => .addr (carry names operand)
  | .deref operand => .deref (carry names operand)
  | .cast operand => .cast (carry names operand)
  | .call function args => .call function (carry names args)
  | .stmtExpr body => .stmtExpr (carry names body)
  | .ret value => .ret (carry names value)
  | .branch cond onTrue onFalse =>
      .branch (carry names cond) (carry names onTrue) (carry names onFalse)
  | .loop init cond step body =>
      .loop (carry names init) (carry names cond) (carry names step) (carry names body)
  | .block body => .block (carry names body)
  | .exprStmt expr => .exprStmt (carry names expr)
  | .goto target => .goto target
  | .label name body => .label name (carry names body)

instance : Carried NodeKind := ⟨NodeKind.carried⟩

instance : Carried Function :=
  ⟨fun names function => { function with body := carry names function.body }⟩

/-- The kind of symbol under other references. -/
def SymbolKind.carried (names : Renaming) : SymbolKind -> SymbolKind
  | .localVar offset => .localVar offset
  | .globalVar init => .globalVar init
  | .function defined => .function (carry names defined)

instance : Carried SymbolKind := ⟨SymbolKind.carried⟩

instance : Carried Symbol :=
  ⟨fun names symbol =>
    { symbol with ty := carry names symbol.ty, kind := carry names symbol.kind }⟩

/-- What an identifier stands for under other references. -/
def Binding.carried (names : Renaming) : Binding -> Binding
  | .object symbol => .object symbol
  | .typedef ty => .typedef (carry names ty)
  | .enumConstant ty value => .enumConstant (carry names ty) value

instance : Carried Binding := ⟨Binding.carried⟩

instance :
    Carried Frame := ⟨fun names frame => ⟨carry names frame.vars, carry names frame.tags⟩⟩

instance : Carried Scopes :=
  ⟨fun names scopes => ⟨carry names scopes.file, carry names scopes.blocks⟩⟩

variable (names : Renaming)

/-! ## Types -/

namespace Ty

variable (ty : Ty)

@[simp] theorem carry_size : (carry names ty).size = ty.size := rfl

@[simp] theorem carry_align : (carry names ty).align = ty.align := rfl

@[simp] theorem carry_kind : (carry names ty).kind = carry names ty.kind := rfl

/-- Renaming does not change which types are integers. -/
@[simp] theorem carry_isInteger : (carry names ty).isInteger = ty.isInteger := by
  obtain ⟨kind, _, _, _⟩ := ty
  cases kind <;> rfl

@[simp] theorem carry_isVoid : (carry names ty).isVoid = ty.isVoid := by
  obtain ⟨kind, _, _, _⟩ := ty
  cases kind <;> rfl

@[simp] theorem carry_isEnum : (carry names ty).isEnum = ty.isEnum := by
  obtain ⟨kind, _, _, _⟩ := ty
  cases kind <;> rfl

@[simp] theorem carry_isArray : (carry names ty).isArray = ty.isArray := by
  obtain ⟨kind, _, _, _⟩ := ty
  cases kind <;> rfl

@[simp] theorem carry_isFunction : (carry names ty).isFunction = ty.isFunction := by
  obtain ⟨kind, _, _, _⟩ := ty
  cases kind <;> rfl

@[simp] theorem carry_isAggregate : (carry names ty).isAggregate = ty.isAggregate := by
  obtain ⟨kind, _, _, _⟩ := ty
  cases kind <;> rfl

/-- What a renamed type points to is what the type points to, renamed. -/
@[simp] theorem carry_base? : (carry names ty).base? = ty.base?.map (carry names) := by
  obtain ⟨kind, _, _, _⟩ := ty
  cases kind <;> rfl

/-- The members of a renamed type are the renamed members. -/
@[simp] theorem carry_members : (carry names ty).members = carry names ty.members := by
  obtain ⟨kind, _, _, _⟩ := ty
  cases kind <;> rfl

@[simp] theorem carry_width : (carry names ty).width = ty.width := by
  obtain ⟨kind, _, _, _⟩ := ty
  cases kind <;> rfl

@[simp] theorem carry_isBool : ((carry names ty).kind = .bool) = (ty.kind = .bool) := by
  obtain ⟨kind, _, _, _⟩ := ty
  cases kind <;> simp [carry, TyKind.carried]

end Ty

/-- Renaming does not make statements of expressions. -/
@[simp] theorem NodeKind.carry_isExpression (kind : NodeKind) :
    (carry names kind).isExpression = kind.isExpression := by
  cases kind <;> rfl

/-! ## Results of lookups -/

/-- A result that is the other one, renamed.  If `exact`, one is an error if the other is.
-/
structure Renames {ε α : Type} [Carried α] (names : Renaming) (exact : Prop)
    (result other : Except ε α) : Prop where
  ok : ∀ value, result = .ok value -> other = .ok (carry names value)
  error : exact -> ∀ reason, result = .error reason -> ∃ also, other = .error also

namespace Renames

variable {names} {ε α β : Type} [Carried α] [Carried β] {exact : Prop}

/-- A value is renamed as it is. -/
theorem of_ok (value : α) :
    Renames names exact (.ok value : Except ε α) (.ok (carry names value)) where
  ok := by
    rintro _ ⟨⟩
    rfl
  error := by
    rintro _ _ ⟨⟩

/-- Any two errors go together. -/
theorem of_error (reason also : ε) :
    Renames names exact (.error reason : Except ε α) (.error also) where
  ok := by
    rintro _ ⟨⟩
  error := fun _ _ _ => ⟨also, rfl⟩

/-- What is read from values that go together goes together. -/
theorem bind {result other : Except ε α} {rest behind : α -> Except ε β}
    (first : Renames names exact result other)
    (second : ∀ value, Renames names exact (rest value) (behind (carry names value))) :
    Renames names exact (result >>= rest) (other >>= behind) := by
  cases known : result with
  | ok value =>
      rw [first.ok value known]
      exact second value
  | error reason =>
      refine ⟨fun value never => (by cases never), fun holds error same => ?_⟩
      obtain ⟨also, failed⟩ := first.error holds reason known
      exact ⟨also, by rw [failed]; rfl⟩

/-- A question whose answer holds no references, so that it is the same. -/
theorem of_eq {result other : Except ε α} (same : other = result)
    (fixed : ∀ value : α, carry names value = value) :
    Renames names exact result other where
  ok := fun value known => by rw [same, known, fixed]
  error := fun _ reason known => ⟨reason, same.trans known⟩

end Renames

namespace TypeTable

/-- What stands in a table of types stands, renamed, in another.  If `exact`, nothing else
stands there. -/
structure Renames (names : Renaming) (exact : Prop)
    (types others : TypeTable) : Prop where
  found : ∀ id ty, types.get? id = some ty ->
    others.get? (carry names id) = some (carry names ty)
  missing : exact -> ∀ id, types.get? id = none -> others.get? (carry names id) = none

variable {names} {exact : Prop} {types others : TypeTable}

/-- The entry under a renamed reference is the renamed entry. -/
theorem Renames.entry (renames : types.Renames names exact others) (id : TyId) :
    MiniC.Renames names exact (types.entry id) (others.entry (carry names id)) := by
  unfold TypeTable.entry
  cases known : types.get? id with
  | some ty =>
      rw [renames.found id ty known]
      exact .of_ok ty
  | none =>
      refine ⟨fun _ never => (by cases never), fun holds _ _ => ?_⟩
      rw [renames.missing holds id known]
      exact ⟨_, rfl⟩

/-- Members are laid out one behind another in both tables alike. -/
theorem Renames.structFrom (renames : types.Renames names exact others)
    (fields : List Field) (offset align : Int) :
    MiniC.Renames names exact (types.structFrom fields offset align)
      (others.structFrom (carry names fields) offset align) := by
  induction fields generalizing offset align with
  | nil => exact .bind (.of_eq rfl fun _ => rfl) fun _ => .of_ok _
  | cons field rest hypothesis =>
      exact .bind (renames.entry field.ty) fun ty =>
        .bind (.of_eq rfl fun _ => rfl) fun _ =>
        .bind (.of_eq rfl fun _ => rfl) fun _ => .bind (hypothesis _ _) fun _ => .of_ok _

/-- So are members on top of each other. -/
theorem Renames.unionFrom (renames : types.Renames names exact others)
    (fields : List Field) (largest align : Int) :
    MiniC.Renames names exact (types.unionFrom fields largest align)
      (others.unionFrom (carry names fields) largest align) := by
  induction fields generalizing largest align with
  | nil => exact .bind (.of_eq rfl fun _ => rfl) fun _ => .of_ok _
  | cons field rest hypothesis =>
      exact .bind (renames.entry field.ty) fun ty => .bind (hypothesis _ _)
        fun _ => .of_ok _

theorem formOf_carry (ty : Ty) : formOf (carry names ty) = formOf ty := by
  obtain ⟨kind, _, _, _⟩ := ty
  cases kind <;> rfl

/-- A list of members has the same layout in both tables. -/
theorem Renames.layout (renames : types.Renames names exact others) (form : Form)
    (fields : List Field) :
    MiniC.Renames names exact (types.layout form fields)
      (others.layout form (carry names fields)) := by
  cases form with
  | struct => exact renames.structFrom fields 0 1
  | union => exact renames.unionFrom fields 0 1

end TypeTable

/-! ## Programs -/

/-- A node stands for another one.  Where an expression stood in the source text does not
matter, but a statement is on the same line. -/
structure Node.Stands (names : Renaming) (node other : Node) : Prop where
  kind : other.kind = carry names node.kind
  ty : other.ty = carry names node.ty
  line : node.kind.isExpression = false -> other.line = node.line

namespace Program

/-- What stands in the tables of a program stands, renamed, in those of another.  If
`exact`, nothing else stands there. -/
structure Renames (names : Renaming) (exact : Prop) (program other : Program) : Prop where
  types : program.types.Renames names exact other.types
  found : ∀ id node, program.node? id = some node ->
    ∃ also, other.node? (carry names id) = some also ∧ node.Stands names also
  missing : exact -> ∀ id, program.node? id = none -> other.node? (carry names id) = none
  symbols : other.symbols = program.symbols.map (carry names)
  globals : other.globals = program.globals

namespace Renames

variable {names} {exact : Prop} {program other : Program}

/-- A type is found under the renamed reference, or in neither program. -/
theorem lookupTy (renames : program.Renames names exact other) (id : TyId) :
    MiniC.Renames names exact (program.lookupTy id)
      (other.lookupTy (carry names id)) := by
  unfold Program.lookupTy
  cases known : program.types.get? id with
  | some ty =>
      rw [renames.types.found id ty known]
      exact .of_ok ty
  | none =>
      refine ⟨fun _ never => (by cases never), fun holds _ _ => ?_⟩
      rw [renames.types.missing holds id known]
      exact ⟨_, rfl⟩

/-- A node is looked up, of which no more is read than what does not depend on its place.
-/
theorem lookupNode_bind {α : Type} [Carried α]
    (renames : program.Renames names exact other)
    (id : NodeId) {rest behind : Node -> Except Error α}
    (second : ∀ node also, node.Stands names also ->
      MiniC.Renames names exact (rest node) (behind also)) :
    MiniC.Renames names exact (program.lookupNode id >>= rest)
      (other.lookupNode (carry names id) >>= behind) := by
  unfold Program.lookupNode
  cases known : program.node? id with
  | some node =>
      obtain ⟨also, there, stands⟩ := renames.found id node known
      rw [there]
      exact second node also stands
  | none =>
      refine ⟨fun _ never => (by cases never), fun holds _ _ => ?_⟩
      rw [renames.missing holds id known]
      exact ⟨_, rfl⟩

/-- The type of a renamed node is the renamed type. -/
theorem typeOf (renames : program.Renames names exact other) (id : NodeId) :
    MiniC.Renames names exact (program.typeOf id) (other.typeOf (carry names id)) := by
  refine renames.lookupNode_bind id fun node also stands => ?_
  rw [stands.ty]
  cases node.ty with
  | some ty => exact .of_ok ty
  | none => exact .of_error _ _

theorem nodeTy (renames : program.Renames names exact other) (id : NodeId) :
    MiniC.Renames names exact (program.nodeTy id) (other.nodeTy (carry names id)) :=
  .bind (renames.typeOf id) fun ty => renames.lookupTy ty

/-- Symbols have the same references in both programs. -/
theorem symbol? (renames : program.Renames names exact other) (id : SymbolId) :
    other.symbol? id = (program.symbol? id).map (carry names) := by
  unfold Program.symbol?
  rw [renames.symbols, Array.getElem?_map]

theorem lookupSymbol (renames : program.Renames names exact other) (id : SymbolId) :
    MiniC.Renames names exact (program.lookupSymbol id) (other.lookupSymbol id) := by
  unfold Program.lookupSymbol
  rw [renames.symbol?]
  cases program.symbol? id with
  | some symbol => exact .of_ok symbol
  | none => exact .of_error _ _

/-- A member is found in both programs or in neither. -/
theorem lookupMember (renames : program.Renames names exact other) (aggregate : TyId)
    (index : Nat) :
    MiniC.Renames names exact (program.lookupMember aggregate index)
      (other.lookupMember (carry names aggregate) index) := by
  refine .bind (renames.lookupTy aggregate) fun ty => ?_
  have same :
      (carry names ty).members[index]? = (ty.members[index]?).map (carry names) := by
    rw [Ty.carry_members]
    exact List.getElem?_map
  rw [same]
  cases ty.members[index]? with
  | some member => exact .of_ok member
  | none => exact .of_error _ _

/-- A symbol may be given what it stands for in both programs. -/
theorem setSymbolKind (renames : program.Renames names exact other) (id : SymbolId)
    (kind : SymbolKind) :
    (program.setSymbolKind id kind).Renames names exact
      (other.setSymbolKind id (carry names kind)) where
  types := renames.types
  found := renames.found
  missing := renames.missing
  symbols := by
    unfold Program.setSymbolKind
    rw [renames.symbols]
    apply Array.ext_getElem?
    intro index
    simp only [Array.getElem?_modify, Array.getElem?_map]
    split <;> cases program.symbols[index]? <;> rfl
  globals := renames.globals

end Renames

/-! ## Frames -/

/-- A computation on programs does alike on a program and on one that it renames. -/
def Alike (names : Renaming) (exact : Prop) {α : Type} (first second : FrameM α) : Prop :=
  ∀ program other : Program, program.Renames names exact other ->
    (∀ value after, first program = .ok value after -> ∃ reached,
      second other = .ok value reached ∧ after.Renames names exact reached ∧
        after.types = program.types ∧ after.nodes = program.nodes ∧
        reached.types = other.types ∧ reached.nodes = other.nodes) ∧
    (exact -> ∀ reason after, first program = .error reason after ->
      ∃ also reached, second other = .error also reached)

namespace Alike

variable {names} {exact : Prop} {α β : Type}

/-- A value that is given in both programs. -/
theorem pure (value : α) : Alike names exact (Pure.pure value) (Pure.pure value) := by
  refine fun program other renames => ⟨?_, fun _ _ _ never => by cases never⟩
  rintro _ _ ⟨⟩
  exact ⟨other, rfl, renames, rfl, rfl, rfl, rfl⟩

theorem throw (reason also : LayoutError) :
    Alike names exact (throw reason : FrameM α) (MonadExcept.throw also) :=
  fun _ other _ => ⟨fun _ _ never => (by cases never), fun _ _ _ _ => ⟨also, other, rfl⟩⟩

/-- Steps that go together may be taken one behind another. -/
theorem bind {first second : FrameM α} {rest behind : α -> FrameM β}
    (one : Alike names exact first second)
    (other : ∀ value, Alike names exact (rest value) (behind value)) :
    Alike names exact (first >>= rest) (second >>= behind) := by
  intro program beside renames
  change _ ∧ (exact -> ∀ reason after, EStateM.bind first rest program = _ -> _)
  change (∀ value after, EStateM.bind first rest program = _ -> ∃ reached,
    EStateM.bind second behind beside = _ ∧ _) ∧ (exact -> ∀ reason after, _ ->
      ∃ also reached, EStateM.bind second behind beside = _)
  unfold EStateM.bind
  cases run : first program with
  | ok value middle =>
      obtain ⟨reached, ran, kept, types, nodes, alsoTypes, alsoNodes⟩ :=
        (one program beside renames).1 value middle run
      rw [ran]
      obtain ⟨done, failed⟩ := other value middle reached kept
      refine ⟨fun result after same => ?_, failed⟩
      obtain ⟨last, ends, keeps, sameTypes, sameNodes, theirTypes, theirNodes⟩ :=
        done result after same
      exact ⟨last, ends, keeps, sameTypes.trans types, sameNodes.trans nodes,
        theirTypes.trans alsoTypes, theirNodes.trans alsoNodes⟩
  | error reason middle =>
      refine ⟨fun _ _ never => (by cases never), fun holds _ _ _ => ?_⟩
      obtain ⟨also, reached, failed⟩ :=
        (one program beside renames).2 holds reason middle run
      exact ⟨also, reached, by rw [failed]⟩

/-- A program is read where a renamed program gives the renamed answer. -/
theorem get_bind {rest behind : Program -> FrameM β}
    (second : ∀ program other : Program, program.Renames names exact other ->
      Alike names exact (rest program) (behind other)) :
    Alike names exact (get >>= rest) (get >>= behind) :=
  fun program other renames => second program other renames program other renames

/-- A step that gives a symbol what it stands for. -/
theorem setSymbolKind (id : SymbolId) (kind : SymbolKind) :
    Alike names exact (modify (·.setSymbolKind id kind) : FrameM Unit)
      (modify (·.setSymbolKind id (carry names kind))) := by
  refine fun program other renames => ⟨?_, fun _ _ _ never => by cases never⟩
  rintro _ _ ⟨⟩
  exact ⟨_, rfl, renames.setSymbolKind id kind, rfl, rfl, rfl, rfl⟩

theorem sized (size : Option Int) :
    Alike names exact (FrameM.sized size) (FrameM.sized size) := by
  cases size with
  | none => exact .throw _ _
  | some size => exact .pure _

theorem aligned (size align : Int) :
    Alike names exact (FrameM.aligned size align) (FrameM.aligned size align) := by
  unfold FrameM.aligned
  split
  · exact .pure _
  · exact .throw _ _

/-- A symbol is looked up and used as far as its references allow. -/
theorem symbol_bind (id : SymbolId) {rest behind : Symbol -> FrameM β}
    (second : ∀ symbol, Alike names exact (rest symbol) (behind (carry names symbol))) :
    Alike names exact (FrameM.symbol id >>= rest) (FrameM.symbol id >>= behind) := by
  unfold FrameM.symbol
  simp only [bind_assoc]
  refine .get_bind fun program other renames => ?_
  rw [renames.symbol?]
  cases program.symbol? id with
  | some symbol => exact second symbol
  | none => exact .throw _ _

/-- The type of a symbol is looked up, of which no more than size and alignment are used.
-/
theorem symbolTy_bind (id : SymbolId) {rest behind : Ty -> FrameM β}
    (second : ∀ ty, Alike names exact (rest ty) (behind (carry names ty))) :
    Alike names exact (FrameM.symbolTy id >>= rest) (FrameM.symbolTy id >>= behind) := by
  unfold FrameM.symbolTy
  simp only [bind_assoc]
  refine .symbol_bind id fun symbol => .get_bind fun program other renames => ?_
  cases known : program.types.get? symbol.ty with
  | some ty =>
      have there : other.types.get? (carry names symbol).ty = _ :=
        renames.types.found symbol.ty ty known
      rw [there]
      exact second ty
  | none =>
      intro first second also
      refine ⟨fun _ _ never => (by cases never), fun holds _ _ _ => ?_⟩
      have there : other.types.get? (carry names symbol).ty = _ :=
        renames.types.missing holds symbol.ty known
      rw [there]
      exact ⟨_, _, rfl⟩

/-- Local variables are placed at the same offsets. -/
theorem placeLocals (locals : List SymbolId) (offset : Int) :
    Alike names exact (placeLocals locals offset) (placeLocals locals offset) := by
  induction locals generalizing offset with
  | nil => exact .pure _
  | cons id rest hypothesis =>
      exact .symbolTy_bind id fun ty => .bind (.sized _) fun _ =>
        .bind (.aligned _ _) fun _ => .bind (.setSymbolKind _ _) fun _ => hypothesis _

theorem setFrameSize (id : SymbolId) (size : Int) :
    Alike names exact (setFrameSize id size) (setFrameSize id size) := by
  refine .symbol_bind id fun ⟨_, _, _, kind⟩ => ?_
  cases kind with
  | function defined =>
      exact .setSymbolKind id (.function { defined with stackSize := size })
  | localVar offset => exact .pure _
  | globalVar init => exact .pure _

/-- Frames are laid out alike under other references. -/
theorem layoutFrame (id : SymbolId) :
    Alike names exact (layoutFrame id) (layoutFrame id) := by
  refine .symbol_bind id fun ⟨_, _, _, kind⟩ => ?_
  cases kind with
  | function defined =>
      exact .bind (.placeLocals _ _) fun _ => .bind (.sized _) fun _ => .setFrameSize _ _
  | localVar offset => exact .pure _
  | globalVar init => exact .pure _

end Alike
end Program

end MiniC
