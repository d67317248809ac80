import MiniC.Program.Frame
import MiniC.Token

/-!
# Programs whose nodes are placed elsewhere

Tokens, nodes and rejections remember a byte offset.  `relocate` changes these offsets and
nothing else.  What is looked up in a program depends on them only as far as they are
themselves the answer, and the layout of frames does not depend on them at all.
-/

namespace MiniC

variable (place : Nat -> Nat)

namespace Token

/-- The token at another offset. -/
def relocate (token : Token) : Token :=
  { token with loc := place token.loc }

@[simp] theorem relocate_kind (token : Token) :
    (token.relocate place).kind = token.kind := rfl

@[simp] theorem relocate_text (token : Token) :
    (token.relocate place).text = token.text := rfl

/-- Which symbol a token is does not depend on its offset. -/
@[simp] theorem relocate_isSymbol (token : Token) (symbol : String) :
    (token.relocate place).isSymbol symbol = token.isSymbol symbol :=
  rfl

/-- Whether a token is an identifier does not depend on its offset. -/
@[simp] theorem relocate_isIdentifier (token : Token) :
    (token.relocate place).isIdentifier = token.isIdentifier :=
  rfl

@[simp] theorem relocate_isEof (token : Token) :
    (token.relocate place).isEof = token.isEof :=
  rfl

/-- How a token is quoted in messages does not depend on its offset. -/
@[simp] theorem relocate_describe (token : Token) :
    (token.relocate place).describe = token.describe :=
  rfl

@[simp] theorem relocate_id (token : Token) : token.relocate id = token := rfl

end Token

namespace TokenStream

/-- The tokens at other offsets. -/
def relocate (tokens : TokenStream) : TokenStream :=
  ⟨tokens.body.map (Token.relocate place), tokens.eof.relocate place⟩

/-- There are as many tokens as before. -/
@[simp] theorem relocate_last (tokens : TokenStream) :
    (tokens.relocate place).last = tokens.last :=
  Array.size_map

/-- The token at an index is the same one at another offset. -/
theorem get_relocate (tokens : TokenStream) (index : Nat) :
    (tokens.relocate place).get index = (tokens.get index).relocate place := by
  unfold get relocate
  simp only [Array.getD_eq_getD_getElem?, Array.getElem?_map]
  cases tokens.body[index]? <;> rfl

end TokenStream

namespace Error

/-- The error at another offset. -/
def relocate : Error -> Error
  | rejected cause loc => rejected cause (place loc)
  | internal inconsistency => internal inconsistency
  | fault reason => fault reason

end Error

/-- The node at another offset. -/
def Node.relocate (node : Node) : Node :=
  { node with loc := place node.loc }

@[simp] theorem Node.relocate_kind (node : Node) :
    (node.relocate place).kind = node.kind := rfl

namespace Program

/-- The program with its nodes at other offsets. -/
def relocate (program : Program) : Program :=
  { program with nodes := program.nodes.map (Node.relocate place) }

/-- The types of a program do not remember offsets. -/
@[simp] theorem relocate_types (program : Program) :
    (program.relocate place).types = program.types :=
  rfl

/-- A program whose nodes stay where they are is the same program. -/
@[simp] theorem relocate_id (program : Program) : program.relocate id = program := by
  have same : Node.relocate id = id := rfl
  unfold relocate
  rw [same, Array.map_id]

/-- A node that is looked up is the same one at another offset. -/
theorem node?_relocate (program : Program) (id : NodeId) :
    (program.relocate place).node? id = (program.node? id).map (Node.relocate place) :=
  Array.getElem?_map

/-- A node that has to be there is the same one at another offset. -/
theorem lookupNode_relocate (program : Program) (id : NodeId) :
    (program.relocate place).lookupNode id =
      (program.lookupNode id).map (Node.relocate place) := by
  unfold lookupNode
  rw [node?_relocate]
  cases program.node? id <;> rfl

/-- The type of a node does not depend on its offset. -/
@[simp] theorem typeOf_relocate (program : Program) (id : NodeId) :
    (program.relocate place).typeOf id = program.typeOf id := by
  unfold typeOf
  rw [lookupNode_relocate]
  cases program.lookupNode id with
  | error error => rfl
  | ok node => rfl

/-- The type entry of a node does not depend on its offset. -/
@[simp] theorem nodeTy_relocate (program : Program) (id : NodeId) :
    (program.relocate place).nodeTy id = program.nodeTy id := by
  unfold nodeTy
  rw [typeOf_relocate]
  rfl

/-! ## Errors of lookups -/

/-- A result that is no rejection, so that it has no place. -/
def Unlocated {α : Type} (result : Except Error α) : Prop :=
  ∀ error, result = .error error -> error.relocate place = error

namespace Unlocated

variable {place} {α β : Type}

theorem ok (value : α) : Unlocated place (.ok value) := by
  rintro error ⟨⟩

/-- A fault has no place in the source. -/
theorem fault (reason : Fault) :
    Unlocated place (.error (.fault reason) : Except Error α) := by
  rintro error ⟨⟩
  rfl

/-- A computation made of two rejects nothing if neither of them does. -/
theorem bind
    {result : Except Error α}
    {rest : α -> Except Error β}
    (first : Unlocated place result)
    (second : ∀ value, Unlocated place (rest value)) :
    Unlocated place (result >>= rest) := by
  intro error failed
  cases known : result with
  | ok value =>
      rw [known] at failed
      exact second value error failed
  | error own =>
      rw [known] at failed
      cases failed
      exact first error known

/-- A missing type is a fault and no rejection. -/
theorem lookupTy (program : Program) (id : TyId) :
    Unlocated place (program.lookupTy id) := by
  unfold Program.lookupTy
  split
  · exact .ok _
  · exact .fault _

/-- A missing node is a fault and no rejection. -/
theorem lookupNode (program : Program) (id : NodeId) :
    Unlocated place (program.lookupNode id) := by
  unfold Program.lookupNode
  split
  · exact .ok _
  · exact .fault _

/-- A missing symbol is a fault and no rejection. -/
theorem lookupSymbol (program : Program) (id : SymbolId) :
    Unlocated place (program.lookupSymbol id) := by
  unfold Program.lookupSymbol
  split
  · exact .ok _
  · exact .fault _

/-- A node without a type is an inconsistency and no rejection. -/
theorem typeOf (program : Program) (id : NodeId) :
    Unlocated place (program.typeOf id) := by
  refine .bind (.lookupNode program id) fun node => ?_
  split
  · exact .ok _
  · rintro error ⟨⟩
    rfl

/-- The type entry of a node is found without a rejection. -/
theorem nodeTy (program : Program) (id : NodeId) : Unlocated place (program.nodeTy id) :=
  .bind (.typeOf program id) fun ty => .lookupTy program ty

/-- A missing member is a fault and no rejection. -/
theorem lookupMember (program : Program) (aggregate : TyId) (index : Nat) :
    Unlocated place (program.lookupMember aggregate index) := by
  refine .bind (.lookupTy program aggregate) fun ty => ?_
  split
  · exact .ok _
  · exact .fault _

end Unlocated

/-! ## Frames -/

/-- A computation on programs that does not see where nodes are placed. -/
def Placeless {α : Type} (computation : FrameM α) : Prop :=
  ∀ program,
    computation (program.relocate place) =
      match computation program with
      | .ok value after => .ok value (after.relocate place)
      | .error reason after => .error reason (after.relocate place)

namespace Placeless

variable {place} {α β : Type}

theorem pure (value : α) : Placeless place (Pure.pure value) := by
  intro program
  rfl

/-- A layout that is given up leaves the nodes where they are. -/
theorem throw (reason : LayoutError) : Placeless place (throw reason : FrameM α) := by
  intro program
  rfl

/-- A computation made of two that do not see the places of nodes. -/
theorem bind
    {computation : FrameM α}
    {rest : α -> FrameM β}
    (first : Placeless place computation)
    (second : ∀ value, Placeless place (rest value)) :
    Placeless place (computation >>= rest) := by
  intro program
  change EStateM.bind computation rest (program.relocate place) =
    match EStateM.bind computation rest program with
    | .ok value after => .ok value (after.relocate place)
    | .error reason after => .error reason (after.relocate place)
  unfold EStateM.bind
  rw [first program]
  cases computation program with
  | ok value middle => exact second value middle
  | error reason middle => rfl

/-- A program may be read where it does not show the places of nodes. -/
theorem get_bind
    {rest : Program -> FrameM β}
    (second : ∀ program, Placeless place (rest program))
    (same : ∀ program, rest (program.relocate place) = rest program) :
    Placeless place (get >>= rest) := by
  intro program
  change rest (program.relocate place) (program.relocate place) = _
  rw [same program]
  exact second program program

/-- Symbols are recorded apart from the nodes. -/
theorem setSymbolKind (id : SymbolId) (kind : SymbolKind) :
    Placeless place (modify (·.setSymbolKind id kind) : FrameM Unit) := by
  intro program
  rfl

/-- Whether a size is in range does not depend on nodes. -/
theorem sized (size : Option Int) : Placeless place (FrameM.sized size) := by
  cases size with
  | none => exact .throw _
  | some size => exact .pure _

/-- Rounding up an offset does not depend on nodes. -/
theorem aligned (size align : Int) : Placeless place (FrameM.aligned size align) := by
  unfold FrameM.aligned
  split
  · exact .pure _
  · exact .throw _

/-- Looking up a symbol does not show the places of nodes. -/
theorem symbol (id : SymbolId) : Placeless place (FrameM.symbol id) := by
  refine .get_bind (fun program => ?_) fun _ => rfl
  split
  · exact .pure _
  · exact .throw _

/-- Looking up the type of a symbol does not show the places of nodes. -/
theorem symbolTy (id : SymbolId) : Placeless place (FrameM.symbolTy id) := by
  refine .bind (.symbol id) fun symbol => .get_bind (fun program => ?_) fun _ => rfl
  split
  · exact .pure _
  · exact .throw _

/-- Local variables are placed by their types alone. -/
theorem placeLocals (locals : List SymbolId) (offset : Int) :
    Placeless place (placeLocals locals offset) := by
  induction locals generalizing offset with
  | nil => exact .pure _
  | cons id rest hypothesis =>
      exact .bind (.symbolTy id) fun _ => .bind (.sized _) fun _ =>
        .bind (.aligned _ _) fun _ => .bind (.setSymbolKind _ _) fun _ => hypothesis _

/-- The size of a frame is recorded in the symbol of its function. -/
theorem setFrameSize (id : SymbolId) (size : Int) :
    Placeless place (setFrameSize id size) := by
  refine .bind (.symbol id) fun symbol => ?_
  split
  · exact .setSymbolKind _ _
  · exact .pure _

/-- A frame is laid out in the same way wherever nodes are placed. -/
theorem layoutFrame (id : SymbolId) : Placeless place (layoutFrame id) := by
  refine .bind (.symbol id) fun symbol => ?_
  split
  · exact .bind (.placeLocals _ _) fun _ => .bind (.sized _) fun _ => .setFrameSize _ _
  · exact .pure _

end Placeless
end Program
end MiniC
