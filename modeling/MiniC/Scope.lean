import MiniC.Id

/-!
# Scopes

Names are looked up from the innermost scope outwards.  Ordinary identifiers and
the tags of structs, unions and enums are kept apart.  The file scope is always
there: leaving it has no effect.
-/

namespace MiniC

/-- What an ordinary identifier stands for. -/
inductive Binding
  | object (symbol : SymbolId)
  | typedef (ty : TyId)
  | enumConstant (ty : TyId) (value : Int)
  deriving DecidableEq

/-- The declarations of one scope, the newest first. -/
structure Frame where
  vars : List (String × Binding)
  tags : List (String × TyId)
  deriving DecidableEq

/-- The scopes that are open: the file scope and the blocks inside it, the
innermost first. -/
structure Scopes where
  file : Frame
  blocks : List Frame
  deriving DecidableEq

namespace Frame

/-- A scope without declarations. -/
def empty : Frame := ⟨[], []⟩

/-- Declare an ordinary identifier. -/
def declareVariable (frame : Frame) (name : String) (binding : Binding) : Frame :=
  { frame with vars := (name, binding) :: frame.vars }

/-- Declare a tag. -/
def declareTag (frame : Frame) (name : String) (ty : TyId) : Frame :=
  { frame with tags := (name, ty) :: frame.tags }

end Frame

namespace Scopes

/-- Only the file scope, without declarations. -/
def initial : Scopes := ⟨.empty, []⟩

/-- Open a block scope. -/
def enter (scopes : Scopes) : Scopes :=
  { scopes with blocks := .empty :: scopes.blocks }

/-- Close the innermost block scope. -/
def leave (scopes : Scopes) : Scopes :=
  { scopes with blocks := scopes.blocks.tail }

/-- Number of open scopes, the file scope included. -/
def depth (scopes : Scopes) : Nat := scopes.blocks.length + 1

/-- The open scopes from the innermost outwards. -/
def frames (scopes : Scopes) : List Frame := scopes.blocks ++ [scopes.file]

/-- Change the innermost scope. -/
def modifyInnermost (scopes : Scopes) (change : Frame -> Frame) : Scopes :=
  match scopes.blocks with
  | [] => { scopes with file := change scopes.file }
  | block :: outer => { scopes with blocks := change block :: outer }

/-- Declare an ordinary identifier in the innermost scope. -/
def declareVariable (scopes : Scopes) (name : String) (binding : Binding) :
    Scopes :=
  scopes.modifyInnermost (·.declareVariable name binding)

/-- Declare a tag in the innermost scope. -/
def declareTag (scopes : Scopes) (name : String) (ty : TyId) : Scopes :=
  scopes.modifyInnermost (·.declareTag name ty)

/-- What an ordinary identifier stands for here. -/
def lookupVariable? (scopes : Scopes) (name : String) : Option Binding :=
  scopes.frames.findSome? (·.vars.lookup name)

/-- The type that a tag stands for here. -/
def lookupTag? (scopes : Scopes) (name : String) : Option TyId :=
  scopes.frames.findSome? (·.tags.lookup name)

/-- The type that an identifier names here, if it is a typedef name. -/
def typedef? (scopes : Scopes) (name : String) : Option TyId :=
  match scopes.lookupVariable? name with
  | some (.typedef ty) => some ty
  | _ => none

@[simp] theorem leave_enter (scopes : Scopes) : scopes.enter.leave = scopes :=
  rfl

@[simp] theorem depth_enter (scopes : Scopes) :
    scopes.enter.depth = scopes.depth + 1 :=
  rfl

/-- A declaration is found where it was made. -/
theorem lookupVariable?_declareVariable_self
    (scopes : Scopes)
    (name : String)
    (binding : Binding) :
    (scopes.declareVariable name binding).lookupVariable? name = some binding := by
  obtain ⟨file, blocks⟩ := scopes
  cases blocks <;>
    simp [declareVariable, modifyInnermost, lookupVariable?, frames,
      Frame.declareVariable]

/-- A tag is found where it was declared. -/
theorem lookupTag?_declareTag_self
    (scopes : Scopes)
    (name : String)
    (ty : TyId) :
    (scopes.declareTag name ty).lookupTag? name = some ty := by
  obtain ⟨file, blocks⟩ := scopes
  cases blocks <;>
    simp [declareTag, modifyInnermost, lookupTag?, frames, Frame.declareTag]

/-- Ordinary identifiers do not hide tags. -/
@[simp] theorem lookupTag?_declareVariable
    (scopes : Scopes)
    (name tag : String)
    (binding : Binding) :
    (scopes.declareVariable name binding).lookupTag? tag = scopes.lookupTag? tag := by
  obtain ⟨file, blocks⟩ := scopes
  cases blocks <;>
    simp [declareVariable, modifyInnermost, lookupTag?, frames,
      Frame.declareVariable, List.findSome?_cons]

end Scopes
end MiniC
