/-!
# References into the program's tables

Types, syntax nodes and symbols are kept in tables and referred to by index.
Each table has its own kind of reference.
-/

namespace MiniC

/-- Reference to an entry of the type table. -/
structure TyId where
  index : Nat
  deriving DecidableEq

/-- Reference to an entry of the node table. -/
structure NodeId where
  index : Nat
  deriving DecidableEq

/-- Reference to an entry of the symbol table. -/
structure SymbolId where
  index : Nat
  deriving DecidableEq

end MiniC
