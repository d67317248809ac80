import MiniC.Proofs.Program.Growth
import MiniC.Token.Lexer

/-!
# Expression trees and how they are written

C orders its operators by how tightly they bind: the comma least, then assignment, then
the binary operators from `||` up to the products, then the unary operators.  Names and
literals are whole by themselves.  Operators of one binary level group to the left,
assignments and commas to the right.

`Tree.print` writes a tree with the fewest parentheses this order allows: an operand
stands in parentheses exactly when it binds less tightly than its place asks for.
`Program.Represents` says that a node of a program is the root of a tree.
-/

namespace MiniC

namespace BinaryOp

/-- The punctuator of an operator. -/
def text : BinaryOp -> String
  | add => "+"
  | sub => "-"
  | mul => "*"
  | div => "/"
  | mod => "%"
  | eq => "=="
  | ne => "!="
  | lt => "<"
  | le => "<="
  | gt => ">"
  | ge => ">="
  | logAnd => "&&"
  | logOr => "||"

/-- How tightly an operator binds.  Below these levels are the comma with zero and
assignment with one. -/
def level : BinaryOp -> Nat
  | logOr => 2
  | logAnd => 3
  | eq | ne => 4
  | lt | le | gt | ge => 5
  | add | sub => 6
  | mul | div | mod => 7

theorem text_injective {one other : BinaryOp} (same : one.text = other.text) :
    one = other := by
  revert same
  cases one <;> cases other <;> decide

theorem two_le_level (op : BinaryOp) : 2 ≤ op.level := by
  cases op <;> decide

theorem level_le_seven (op : BinaryOp) : op.level ≤ 7 := by
  cases op <;> decide

end BinaryOp

/-- The punctuator of an operator. -/
def UnaryOp.text : UnaryOp -> String
  | neg => "-"
  | not => "!"
  | bitNot => "~"

namespace Precedence

/-- A word that may name a variable or a function. -/
structure Identifier where
  text : String
  ne_empty : text.toList ≠ []
  isWord : ∀ char ∈ text.toList, char.isAlphanum = true ∨ char = '_'
  noDigit : ∀ char ∈ text.toList.head?, char.isDigit = false
  notKeyword : text ∉ Lexer.keywords

/-- Expression trees over integer literals and the given variables. -/
inductive Tree (names : List Identifier)
  | literal (value : Nat) (inRange : (value : Int) ≤ Extent.maxValue)
  | var (name : Identifier) (declared : name ∈ names)
  | unary (op : UnaryOp) (operand : Tree names)
  | binary (op : BinaryOp) (lhs rhs : Tree names)
  | assign (name : Identifier) (declared : name ∈ names) (value : Tree names)
  | comma (lhs rhs : Tree names)

/-- What a token is written for: a punctuator or keyword, a name, or a number in
decimal. -/
inductive Lexeme
  | symbol (text : String)
  | name (name : Identifier)
  | number (value : Nat)

/-- Lexemes of something that binds as tightly as `own` in a place for what binds at least
as tightly as `least`. -/
def enclose (least own : Nat) (lexemes : List Lexeme) : List Lexeme :=
  if own < least then .symbol "(" :: lexemes ++ [.symbol ")"] else lexemes

/-- The punctuators of expressions. -/
def expressionSymbols : List String :=
  ["(", ")", ",", "=", "+", "-", "*", "/", "%", "==", "!=", "<", "<=", ">", ">=",
    "&&", "||", "!", "~"]

namespace Tree

variable {names : List Identifier}

/-- How tightly a tree binds. -/
def level : Tree names -> Nat
  | comma _ _ => 0
  | assign _ _ _ => 1
  | binary op _ _ => op.level
  | unary _ _ => 8
  | literal _ _ | var _ _ => 9

/-- The lexemes of a tree, without parentheses around the whole. -/
def bare : Tree names -> List Lexeme
  | literal value _ => [.number value]
  | var name _ => [.name name]
  | unary op operand => .symbol op.text :: enclose 8 operand.level operand.bare
  | binary op lhs rhs =>
      enclose op.level lhs.level lhs.bare ++
        .symbol op.text :: enclose (op.level + 1) rhs.level rhs.bare
  | assign name _ value => .name name :: .symbol "=" :: enclose 1 value.level value.bare
  | comma lhs rhs =>
      enclose 1 lhs.level lhs.bare ++ .symbol "," :: enclose 0 rhs.level rhs.bare

/-- The lexemes of a tree in a place for what binds at least as tightly as a level. -/
def print (least : Nat) (tree : Tree names) : List Lexeme :=
  enclose least tree.level tree.bare

theorem bare_ne_nil (tree : Tree names) : tree.bare ≠ [] := by
  cases tree <;> simp [bare]

/-- A tree that binds tightly enough stands as it is. -/
theorem print_of_le {least : Nat} {tree : Tree names} (tight : least ≤ tree.level) :
    tree.print least = tree.bare :=
  if_neg (Nat.not_lt.mpr tight)

/-- A tree that binds too loosely stands in parentheses. -/
theorem print_of_lt {least : Nat} {tree : Tree names} (loose : tree.level < least) :
    tree.print least = .symbol "(" :: tree.bare ++ [.symbol ")"] :=
  if_pos loose

/-- Next to the level of a tree nothing changes but at the level itself. -/
theorem print_succ_of_ne {least : Nat} {tree : Tree names} (other : tree.level ≠ least) :
    tree.print (least + 1) = tree.print least := by
  rcases Nat.lt_or_gt_of_ne other with loose | tight
  · rw [print_of_lt loose, print_of_lt (Nat.lt_succ_of_lt loose)]
  · rw [print_of_le (Nat.le_of_lt tight), print_of_le tight]

/-- What holds of the punctuators, of names and of numbers in range holds of all lexemes
of a tree. -/
theorem forall_mem_bare {holds : Lexeme -> Prop} (tree : Tree names)
    (ofSymbol : ∀ text ∈ expressionSymbols, holds (.symbol text))
    (ofName : ∀ name, holds (.name name))
    (ofNumber : ∀ value : Nat, (value : Int) ≤ Extent.maxValue -> holds (.number value)) :
    ∀ lexeme ∈ tree.bare, holds lexeme := by
  have enclosed {lexemes : List Lexeme} (inside : ∀ lexeme ∈ lexemes, holds lexeme)
      (least own : Nat) : ∀ lexeme ∈ enclose least own lexemes, holds lexeme := by
    unfold enclose
    split
    · refine List.forall_mem_cons.mpr ⟨ofSymbol _ (by decide), List.forall_mem_append.mpr
        ⟨inside, List.forall_mem_singleton.mpr (ofSymbol _ (by decide))⟩⟩
    · exact inside
  induction tree with
  | literal value inRange => exact List.forall_mem_singleton.mpr (ofNumber value inRange)
  | var name declared => exact List.forall_mem_singleton.mpr (ofName name)
  | unary op operand hypothesis =>
      refine List.forall_mem_cons.mpr ⟨ofSymbol _ ?_, enclosed hypothesis _ _⟩
      cases op <;> decide
  | binary op lhs rhs left right =>
      refine List.forall_mem_append.mpr ⟨enclosed left _ _, List.forall_mem_cons.mpr
        ⟨ofSymbol _ ?_, enclosed right _ _⟩⟩
      cases op <;> decide
  | assign name declared value hypothesis =>
      refine List.forall_mem_cons.mpr ⟨ofName name, List.forall_mem_cons.mpr
        ⟨ofSymbol _ (by decide), enclosed hypothesis _ _⟩⟩
  | comma lhs rhs left right =>
      refine List.forall_mem_append.mpr ⟨enclosed left _ _, List.forall_mem_cons.mpr
        ⟨ofSymbol _ (by decide), enclosed right _ _⟩⟩

end Tree
end Precedence

open Precedence

namespace Program

/-- The kind of a node. -/
def kind? (program : Program) (id : NodeId) : Option NodeKind :=
  (program.node? id).map (·.kind)

/-- A symbol is the variable of type `int` of that name among some locals. -/
def IsVariable (program : Program) (locals : List SymbolId) (name : Identifier)
    (symbol : SymbolId) : Prop :=
  symbol ∈ locals ∧ ∃ entry, program.symbol? symbol = some entry ∧
    entry.name = name.text ∧ entry.ty = .int

/-- A node that converts another to `int`. -/
def IsIntCast (program : Program) (id operand : NodeId) : Prop :=
  ∃ node, program.node? id = some node ∧ node.kind = .cast operand ∧ node.ty = some .int

/-- A node is the root of a tree over some locals.  The right side of an assignment is
converted to `int`; otherwise the nodes are those of the tree. -/
def Represents {names : List Identifier} (program : Program) (locals : List SymbolId) :
    Tree names -> NodeId -> Prop
  | .literal value _, id => program.kind? id = some (.num value)
  | .var name _, id =>
      ∃ symbol, program.kind? id = some (.var symbol) ∧
      program.IsVariable locals name symbol
  | .unary op operand, id =>
      ∃ inner, program.kind? id = some (.unary op inner) ∧
        program.Represents locals operand inner
  | .binary op lhs rhs, id =>
      ∃ left right, program.kind? id = some (.binary op left right) ∧
        program.Represents locals lhs left ∧ program.Represents locals rhs right
  | .assign name _ value, id =>
      ∃ target cast symbol inner, program.kind? id = some (.assign target cast) ∧
        program.kind? target = some (.var symbol) ∧
        program.IsVariable locals name symbol ∧
        program.IsIntCast cast inner ∧ program.Represents locals value inner
  | .comma lhs rhs, id =>
      ∃ left right, program.kind? id = some (.comma left right) ∧
        program.Represents locals lhs left ∧ program.Represents locals rhs right

/-- A node is the block of a function that declares variables and then evaluates a
tree. -/
def IsBody {names : List Identifier} (program : Program) (locals : List SymbolId)
    (tree : Tree names) (id : NodeId) : Prop :=
  ∃ declarations statement root,
    program.kind? id = some (.block (declarations ++ [statement])) ∧
    declarations.length = names.length ∧
    (∀ declaration ∈ declarations, program.kind? declaration = some (.block [])) ∧
    program.kind? statement = some (.exprStmt root) ∧ program.Represents locals tree root

/-- A program consists of one function.  It has no parameters, its locals are the given
variables, and it evaluates a tree. -/
def Evaluates {names : List Identifier} (program : Program) (function : Identifier)
    (tree : Tree names) : Prop :=
  ∃ definition, program.definitions = [definition] ∧ definition.symbol.name =
    function.text ∧ definition.function.params = [] ∧
    (definition.function.locals.map fun id => (program.symbol? id).map (·.name)) =
      names.map (some ·.text) ∧
    program.IsBody definition.function.locals tree definition.body

variable {old new : Program} {locals : List SymbolId}

theorem kind?_of_some {program : Program} {id : NodeId} {node : Node}
    (found : program.node? id = some node) : program.kind? id = some node.kind := by
  rw [kind?, found]
  rfl

/-- A node that was there keeps its kind. -/
theorem Extends.kind? (extended : old.Extends new) {id : NodeId} {kind : NodeKind}
    (known : old.kind? id = some kind) : new.kind? id = some kind := by
  obtain ⟨node, found, rfl⟩ := Option.map_eq_some_iff.mp known
  exact kind?_of_some (extended.nodes id node found)

namespace Grows

/-- A node that is no block keeps its kind. -/
theorem kind? (grows : old.Grows new) {id : NodeId} {kind : NodeKind}
    (known : old.kind? id = some kind) (other : ∀ body, kind ≠ .block body) :
    new.kind? id = some kind := by
  obtain ⟨node, found, rfl⟩ := Option.map_eq_some_iff.mp known
  obtain ⟨refined, reached, refines⟩ := grows.nodes id node found
  obtain rfl := refines.eq_of_ne_block other
  exact kind?_of_some reached

theorem isVariable (grows : old.Grows new) {name : Identifier} {symbol : SymbolId}
    (is : old.IsVariable locals name symbol) : new.IsVariable locals name symbol := by
  obtain ⟨inside, entry, found, named, typed⟩ := is
  obtain ⟨refined, reached, refines⟩ := grows.symbols symbol entry found
  exact ⟨inside, refined, reached, refines.name.trans named, refines.ty.trans typed⟩

theorem isIntCast (grows : old.Grows new) {id operand : NodeId}
    (is : old.IsIntCast id operand) :
    new.IsIntCast id operand := by
  obtain ⟨node, found, kind, typed⟩ := is
  obtain ⟨refined, reached, refines⟩ := grows.nodes id node found
  obtain rfl := refines.eq_of_ne_block (by simp [kind])
  exact ⟨_, reached, kind, typed⟩

/-- A root of a tree remains one. -/
theorem represents (grows : old.Grows new) {names : List Identifier} {tree : Tree names}
    {id : NodeId} (root : old.Represents locals tree id) :
    new.Represents locals tree id := by
  induction tree generalizing id with
  | literal value inRange => exact grows.kind? root (by simp)
  | var name declared =>
      obtain ⟨symbol, kind, is⟩ := root
      exact ⟨symbol, grows.kind? kind (by simp), grows.isVariable is⟩
  | unary op operand hypothesis =>
      obtain ⟨inner, kind, below⟩ := root
      exact ⟨inner, grows.kind? kind (by simp), hypothesis below⟩
  | binary op lhs rhs left right =>
      obtain ⟨first, second, kind, leftBelow, rightBelow⟩ := root
      exact ⟨first, second, grows.kind? kind (by simp), left leftBelow, right rightBelow⟩
  | assign name declared value hypothesis =>
      obtain ⟨target, cast, symbol, inner, kind, targetKind, is, converts, below⟩ := root
      exact ⟨target, cast, symbol, inner, grows.kind? kind (by simp),
        grows.kind? targetKind (by simp), grows.isVariable is, grows.isIntCast converts,
        hypothesis below⟩
  | comma lhs rhs left right =>
      obtain ⟨first, second, kind, leftBelow, rightBelow⟩ := root
      exact ⟨first, second, grows.kind? kind (by simp), left leftBelow, right rightBelow⟩

/-- A body remains one when no node changes. -/
theorem isBody (grows : old.Grows new) (same : new.nodes = old.nodes)
    {names : List Identifier}
    {tree : Tree names} {id : NodeId} (body : old.IsBody locals tree id) :
    new.IsBody locals tree id := by
  have sameKind (id : NodeId) : new.kind? id = old.kind? id := by
    rw [Program.kind?, Program.kind?, node?, node?, same]
  obtain ⟨declarations, statement, root, block, length, empty, evaluates, represents⟩ :=
    body
  simp only [IsBody, sameKind]
  exact ⟨declarations, statement, root, block, length, empty, evaluates,
    grows.represents represents⟩

end Grows
end Program
end MiniC
