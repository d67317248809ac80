import MiniC.Grammar.Parser

/-!
# Recursive productions

The grammar is recursive: a cast contains a cast, a block contains statements, a
parameter contains a declarator.  Every such recursion happens behind at least one
consumed token.  The productions are therefore written against a record of the
productions they may call again, and the record is built up to a depth that the
number of tokens bounds.
-/

namespace MiniC
namespace Grammar

/-- The storage classes named in a declaration. -/
structure Storage where
  isTypedef : Bool
  isStatic : Bool
  deriving DecidableEq

/-- A declarator applied to a type: the declared type, the index of the name's
token unless it is abstract, and the index of the first token. -/
structure Declarator where
  ty : TyId
  name : Option Nat
  start : Nat

/-- The productions that others may call again. -/
structure Productions where
  /-- Declaration specifiers; the argument tells whether a storage class may
  stand among them. -/
  specifiers : Bool -> Parser (TyId × Storage)
  /-- A declarator applied to a type. -/
  declarator : TyId -> Parser Declarator
  /-- The array and parameter suffixes of a declarator applied to a type. -/
  suffix : TyId -> Parser TyId
  /-- A comma expression. -/
  expr : Parser NodeId
  /-- An assignment expression. -/
  assign : Parser NodeId
  /-- A cast expression. -/
  cast : Parser NodeId
  /-- A unary expression. -/
  unary : Parser NodeId
  /-- A statement. -/
  stmt : Parser NodeId
  /-- The rest of a block after its opening brace. -/
  block : Parser NodeId

namespace Productions

/-- Productions that may not be called: the recursion is deeper than the tokens
allow. -/
def exhausted : Productions where
  specifiers _ := throw (.fault .endless)
  declarator _ := throw (.fault .endless)
  suffix _ := throw (.fault .endless)
  expr := throw (.fault .endless)
  assign := throw (.fault .endless)
  cast := throw (.fault .endless)
  unary := throw (.fault .endless)
  stmt := throw (.fault .endless)
  block := throw (.fault .endless)

end Productions
end Grammar
end MiniC
