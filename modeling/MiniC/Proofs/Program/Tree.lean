import MiniC.Proofs.Program.Growth
import Mathlib.Data.List.Basic
import Mathlib.Data.List.Perm.Subperm
import Mathlib.Logic.Relation

/-!
# Trees of nodes

A node stands for the tree of its children, and `Lists` lists the nodes of trees.  With
each node goes the number of values that wait on the stack while the code of the node
runs: the left operand waits for the right one, and arguments wait for those behind them.
-/

namespace MiniC

/-- A node in the code of a function, with the number of values that wait on the stack
meanwhile. -/
structure Spot where
  waiting : Nat
  id : NodeId
  deriving DecidableEq

namespace Spot

/-- The same node below more values. -/
def raise (count : Nat) (spot : Spot) : Spot := ⟨count + spot.waiting, spot.id⟩

@[simp] theorem raise_id (count : Nat) (spot : Spot) :
    (spot.raise count).id = spot.id := rfl

@[simp] theorem raise_waiting (count : Nat) (spot : Spot) :
    (spot.raise count).waiting = count + spot.waiting := rfl

@[simp] theorem raise_zero (spot : Spot) : spot.raise 0 = spot := by
  rw [raise, Nat.zero_add]

theorem raise_raise (first second : Nat) (spot : Spot) :
    (spot.raise second).raise first = spot.raise (first + second) := by
  simp only [raise, Nat.add_assoc]

/-- Nodes that no value waits for. -/
def level (ids : List NodeId) : List Spot := ids.map fun id => ⟨0, id⟩

/-- Nodes that leave a value each, which waits for the nodes behind. -/
def stacked : List NodeId -> List Spot
  | [] => []
  | id :: rest => ⟨0, id⟩ :: (stacked rest).map (raise 1)

@[simp] theorem map_id_level (ids : List NodeId) : (level ids).map (·.id) = ids := by
  simp [level, Function.comp_def]

@[simp] theorem map_id_stacked (ids : List NodeId) : (stacked ids).map (·.id) = ids := by
  induction ids with
  | nil => rfl
  | cons id rest hypothesis =>
      rw [stacked, List.map_cons, List.map_map]
      exact congrArg (id :: ·) hypothesis

theorem waiting_of_mem_level {ids : List NodeId} {spot : Spot}
    (member : spot ∈ level ids) :
    spot.waiting = 0 := by
  obtain ⟨_, _, rfl⟩ := List.mem_map.mp member
  rfl

theorem level_append (first second : List NodeId) :
    level (first ++ second) = level first ++ level second :=
  List.map_append

end Spot

/-- What a statement has to do with labels of the source text. -/
inductive Sign
  | label (name : String)
  | goto (name : String)
  deriving DecidableEq

namespace NodeKind

open Spot

/-- A labelled statement has a label, and a goto statement jumps to one. -/
def sign? : NodeKind -> Option Sign
  | goto name => some (.goto name)
  | .label name _ => some (.label name)
  | _ => none

theorem sign?_of_isExpression {kind : NodeKind} (expression : kind.isExpression = true) :
    kind.sign? = none := by
  cases kind <;> first | rfl | cases expression

/-- The children of a node in the order of their code. -/
def spots : NodeKind -> List Spot
  | num _ | var _ | goto _ => []
  | unary _ operand | addr operand | deref operand | cast operand => level [operand]
  | binary .logAnd lhs rhs | binary .logOr lhs rhs | comma lhs rhs => level [lhs, rhs]
  | binary _ lhs rhs | assign lhs rhs => stacked [lhs, rhs]
  | member base _ _ => level [base]
  | call _ args => stacked args
  | stmtExpr body | block body => level body
  | ret value => level value.toList
  | branch cond onTrue onFalse => level (cond :: onTrue :: onFalse.toList)
  | loop init cond step body =>
      level (init.toList ++ cond.toList ++ [body] ++ step.toList)
  | exprStmt expr => level [expr]
  | label _ body => level [body]

theorem spots_binary {op : BinaryOp} (notAnd : op ≠ .logAnd) (notOr : op ≠ .logOr)
    (lhs rhs : NodeId) : (binary op lhs rhs).spots = stacked [lhs, rhs] := by
  cases op with
  | logAnd => exact absurd rfl notAnd
  | logOr => exact absurd rfl notOr
  | _ => rfl

/-- The code of a node contains that of each child once. -/
theorem spots_perm (kind : NodeKind) : (kind.spots.map (·.id)).Perm kind.children := by
  cases kind with
  | binary op lhs rhs => cases op <;> simp [spots, children]
  | loop init cond step body =>
      rw [spots, map_id_level, children, List.append_assoc _ [body],
        List.append_assoc _ step.toList]
      exact List.perm_append_comm.append_left _
  | _ => simp [spots, children]

theorem mem_spots {kind : NodeKind} {child : NodeId} :
    (∃ spot ∈ kind.spots, spot.id = child) ↔ child ∈ kind.children := by
  rw [← kind.spots_perm.mem_iff, List.mem_map]

/-- No value waits for the children of statements and of statement expressions. -/
theorem waiting_of_mem_spots
    {kind : NodeKind}
    (level : kind.isExpression = false ∨ ∃ body, kind = stmtExpr body)
    {spot : Spot}
    (member : spot ∈ kind.spots) :
    spot.waiting = 0 := by
  rcases level with statement | ⟨body, rfl⟩
  · cases kind with
    | ret | branch | loop | block | exprStmt | label => exact waiting_of_mem_level member
    | goto => cases member
    | _ => cases statement
  · exact waiting_of_mem_level member

/-- Only statements and statement expressions have statements as children. -/
theorem parts_eq_nil
    {kind : NodeKind}
    (expression : kind.isExpression = true)
    (other : ∀ body, kind ≠ stmtExpr body) :
    kind.parts = [] := by
  cases kind with
  | stmtExpr body => exact absurd rfl (other body)
  | ret | branch | loop | block | exprStmt | goto | label => cases expression
  | _ => rfl

end NodeKind

namespace Program

/-- What a node has to do with labels of the source text. -/
def sign? (program : Program) (id : NodeId) : Option Sign :=
  (program.node? id).bind (·.kind.sign?)

/-- A node that is a statement expression. -/
def IsStmtExpr (program : Program) (id : NodeId) : Prop :=
  ∃ node body, program.node? id = some node ∧ node.kind = .stmtExpr body

theorem isStatement_of_sign?
    {program : Program}
    {id : NodeId}
    {sign : Sign}
    (known : program.sign? id = some sign) :
    program.IsStatement id := by
  obtain ⟨node, found, own⟩ := Option.bind_eq_some_iff.mp known
  refine ⟨node, found, ?_⟩
  cases kind : node.kind with
  | goto | label => rfl
  | _ => simp [kind, NodeKind.sign?] at own

/-! ## Nodes and their children -/

/-- One node is a child of another. -/
def Child (program : Program) (parent child : NodeId) : Prop :=
  ∃ node, program.node? parent = some node ∧ child ∈ node.kind.children

/-- A node is another one, or a child of one that the other contains. -/
def Contains (program : Program) : NodeId -> NodeId -> Prop :=
  Relation.ReflTransGen program.Child

/-- The nodes of trees, given the roots: each node before its children. -/
inductive Lists (program : Program) : List Spot -> List Spot -> Prop
  | nil : Lists program [] []
  | cons {root node rest inner others}
      (found : program.node? root.id = some node)
      (below : Lists program (node.kind.spots.map (.raise root.waiting)) inner)
      (beside : Lists program rest others) :
      Lists program (root :: rest) (root :: inner ++ others)

variable {program : Program}

theorem Contains.child
    {root id child : NodeId}
    {node : Node}
    (contains : program.Contains root id)
    (found : program.node? id = some node)
    (member : child ∈ node.kind.children) :
    program.Contains root child :=
  Relation.ReflTransGen.tail contains ⟨node, found, member⟩

namespace Lists

variable {roots more nodes others : List Spot}

theorem append (left : program.Lists roots nodes) (right : program.Lists more others) :
    program.Lists (roots ++ more) (nodes ++ others) := by
  induction left with
  | nil => exact right
  | cons found below _ _ hypothesis =>
      rw [List.cons_append, List.append_assoc]
      exact .cons found below hypothesis

/-- The trees of some roots and those of others. -/
theorem split (lists : program.Lists (roots ++ more) nodes) :
    ∃ first second, program.Lists roots first ∧ program.Lists more second ∧
      nodes = first ++ second := by
  induction roots generalizing nodes with
  | nil => exact ⟨[], nodes, .nil, lists, rfl⟩
  | cons root roots hypothesis =>
      cases lists with
      | cons found below beside =>
          obtain ⟨first, second, left, right, rfl⟩ := hypothesis beside
          exact ⟨_, second, .cons found below left, right, by simp⟩

/-- The nodes of a single tree. -/
theorem single {root : Spot} {node : Node} (found : program.node? root.id = some node)
    (below : program.Lists (node.kind.spots.map (.raise root.waiting)) nodes) :
    program.Lists [root] (root :: nodes) := by
  have whole := Lists.cons found below .nil
  rwa [List.append_nil] at whole

theorem single_cases {root : Spot} (lists : program.Lists [root] nodes) :
    ∃ node inner, program.node? root.id = some node ∧
      program.Lists (node.kind.spots.map (.raise root.waiting)) inner ∧
      nodes = root :: inner := by
  cases lists with
  | cons found below beside =>
      cases beside
      exact ⟨_, _, found, below, by simp⟩

/-- Below more values all nodes are below more values. -/
theorem raise (lists : program.Lists roots nodes) (count : Nat) :
    program.Lists (roots.map (.raise count)) (nodes.map (.raise count)) := by
  induction lists with
  | nil => exact .nil
  | @cons root node rest inner others found _ _ below beside =>
      rw [List.map_cons, List.map_append, List.map_cons]
      refine .cons found ?_ beside
      rw [List.map_map] at below
      have spots : node.kind.spots.map (Spot.raise (root.raise count).waiting) =
          node.kind.spots.map (Spot.raise count ∘ Spot.raise root.waiting) := by
        apply List.map_congr_left
        intro spot _
        rw [Function.comp_apply, Spot.raise_raise, Spot.raise_waiting]
      rw [spots]
      exact below

/-- Trees have one list of nodes. -/
theorem unique (first : program.Lists roots nodes) (second : program.Lists roots others) :
    nodes = others := by
  induction first generalizing others with
  | nil =>
      cases second
      rfl
  | cons found _ _ below beside =>
      cases second with
      | cons otherFound otherBelow otherBeside =>
          obtain rfl := Option.some.inj (found.symm.trans otherFound)
          rw [below otherBelow, beside otherBeside]

/-- The nodes of trees do not depend on other nodes. -/
theorem congr
    {other : Program}
    (lists : program.Lists roots nodes)
    (same : ∀ spot ∈ nodes, other.node? spot.id = program.node? spot.id) :
    other.Lists roots nodes := by
  induction lists with
  | nil => exact .nil
  | cons found _ _ below beside =>
      simp only [List.cons_append, List.forall_mem_cons, List.forall_mem_append] at same
      refine .cons ?_ (below same.2.1) (beside same.2.2)
      rw [same.1, found]

/-- All nodes of trees are there. -/
theorem found (lists : program.Lists roots nodes) :
    ∀ spot ∈ nodes, ∃ node, program.node? spot.id = some node := by
  induction lists with
  | nil => simp
  | cons found _ _ below beside =>
      simp only [List.cons_append, List.forall_mem_cons, List.forall_mem_append]
      exact ⟨⟨_, found⟩, below, beside⟩

/-- If children come before their parents, then so do all nodes of a tree. -/
theorem index_lt
    (earlier : ∀ id node, program.node? id = some node ->
      ∀ child ∈ node.kind.children, child.index < id.index)
    {bound : Nat}
    (lists : program.Lists roots nodes)
    (below : ∀ root ∈ roots, root.id.index < bound) :
    ∀ spot ∈ nodes, spot.id.index < bound := by
  induction lists with
  | nil => simp
  | @cons root node rest inner others found _ _ inside beside =>
      simp only [List.forall_mem_cons] at below
      simp only [List.cons_append, List.forall_mem_cons, List.forall_mem_append]
      refine ⟨below.1, inside ?_, beside below.2⟩
      intro _ member
      obtain ⟨spot, own, rfl⟩ := List.mem_map.mp member
      have child := NodeKind.mem_spots.mp ⟨spot, own, rfl⟩
      exact Nat.lt_trans (earlier root.id node found spot.id child) below.1

/-- The same roots below other numbers of values. -/
theorem relabel
    (lists : program.Lists roots nodes)
    (same : more.map (·.id) = roots.map (·.id)) :
    ∃ others, program.Lists more others ∧ others.map (·.id) = nodes.map (·.id) := by
  induction lists generalizing more with
  | nil =>
      obtain rfl := List.map_eq_nil_iff.mp same
      exact ⟨[], .nil, rfl⟩
  | @cons root node rest inner others found _ _ below beside =>
      obtain ⟨head, tail, rfl, headSame, tailSame⟩ := List.map_eq_cons_iff.mp same
      obtain ⟨newInner, innerLists, innerSame⟩ :=
        @below (node.kind.spots.map (Spot.raise head.waiting))
          (by simp [Function.comp_def])
      obtain ⟨newOthers, othersLists, othersSame⟩ := beside tailSame
      refine ⟨head :: newInner ++ newOthers, .cons ?_ innerLists othersLists, ?_⟩
      · rw [headSame, found]
      · simp only [List.map_cons, List.map_append, headSame, innerSame, othersSame]

/-- The same roots in another order. -/
theorem perm (lists : program.Lists roots nodes) (order : roots.Perm more) :
    ∃ others, program.Lists more others ∧ nodes.Perm others := by
  induction order generalizing nodes with
  | nil => exact ⟨nodes, lists, .refl _⟩
  | cons root _ hypothesis =>
      cases lists with
      | cons found below beside =>
          obtain ⟨others, beside, same⟩ := hypothesis beside
          exact ⟨_, .cons found below beside, (same.append_left _)⟩
  | swap first second rest =>
      cases lists with
      | @cons _ _ _ inner _ found below beside =>
          cases beside with
          | @cons _ _ _ otherInner _ otherFound otherBelow beside =>
              refine ⟨_, .cons otherFound otherBelow (.cons found below beside), ?_⟩
              simp only [← List.append_assoc]
              exact List.perm_append_comm.append_right _
  | trans _ _ first second =>
      obtain ⟨middle, middleLists, left⟩ := first lists
      obtain ⟨others, lastLists, right⟩ := second middleLists
      exact ⟨others, lastLists, left.trans right⟩

/-- The nodes of trees are those that the roots contain. -/
theorem mem_iff_contains (lists : program.Lists roots nodes) {id : NodeId} :
    (∃ spot ∈ nodes, spot.id = id) ↔ ∃ root ∈ roots, program.Contains root.id id := by
  induction lists with
  | nil => simp
  | @cons root node rest inner others found _ _ below beside =>
      have inside : (∃ spot ∈ node.kind.spots.map (Spot.raise root.waiting),
          program.Contains spot.id id) ↔
          ∃ child ∈ node.kind.children, program.Contains child id := by
        constructor
        · rintro ⟨_, member, contains⟩
          obtain ⟨spot, listed, rfl⟩ := List.mem_map.mp member
          exact ⟨spot.id, NodeKind.mem_spots.mp ⟨spot, listed, rfl⟩, contains⟩
        · rintro ⟨_, member, contains⟩
          obtain ⟨spot, listed, rfl⟩ := NodeKind.mem_spots.mpr member
          exact ⟨_, List.mem_map_of_mem listed, contains⟩
      have root_iff : program.Contains root.id id ↔
          root.id = id ∨ ∃ child ∈ node.kind.children, program.Contains child id := by
        constructor
        · intro contains
          rcases Relation.ReflTransGen.cases_head
            contains with same | ⟨child, step, further⟩
          · exact .inl same
          · obtain ⟨other, otherFound, member⟩ := step
            obtain rfl := Option.some.inj (found.symm.trans otherFound)
            exact .inr ⟨child, member, further⟩
        · rintro (rfl | ⟨child, member, contains⟩)
          · exact .refl
          · exact .head ⟨node, found, member⟩ contains
      rw [inside] at below
      simp only [List.cons_append, List.mem_cons, List.mem_append,
        or_and_right, exists_or, exists_eq_left, below, beside, root_iff, or_assoc]

/-- If no value waits for a statement expression, then values wait only for
expressions. -/
theorem level_or_isExpression
    (operands : ∀ id node, program.node? id = some node ->
      ∀ child ∈ node.kind.operands, program.IsExpression child)
    (lists : program.Lists roots nodes)
    (starts : ∀ root ∈ roots, root.waiting = 0 ∨ program.IsExpression root.id)
    (unawaited : ∀ spot ∈ nodes, program.IsStmtExpr spot.id -> spot.waiting = 0) :
    ∀ spot ∈ nodes, spot.waiting = 0 ∨ program.IsExpression spot.id := by
  induction lists with
  | nil => simp
  | @cons root node rest inner others found _ _ below beside =>
      simp only [List.forall_mem_cons] at starts
      simp only [List.cons_append, List.forall_mem_cons,
        List.forall_mem_append] at unawaited ⊢
      refine ⟨starts.1, below ?_ unawaited.2.1, beside starts.2 unawaited.2.2⟩
      intro _ member
      obtain ⟨spot, own, rfl⟩ := List.mem_map.mp member
      by_cases level : node.kind.isExpression = false ∨ ∃ body, node.kind = .stmtExpr body
      · -- Statements are where their parents are.
        have same : root.waiting = 0 := by
          rcases level with statement | ⟨body, kind⟩
          · refine starts.1.resolve_right ?_
            rintro ⟨other, otherFound, expression⟩
            obtain rfl := Option.some.inj (found.symm.trans otherFound)
            rw [statement] at expression
            cases expression
          · exact unawaited.1 ⟨node, body, found, kind⟩
        refine .inl ?_
        rw [Spot.raise_waiting, same, NodeKind.waiting_of_mem_spots level own]
      · simp only [not_or, not_exists, Bool.not_eq_false] at level
        have child := NodeKind.mem_spots.mp ⟨spot, own, rfl⟩
        rw [NodeKind.mem_children, NodeKind.parts_eq_nil level.1 level.2] at child
        exact .inr (operands root.id node found spot.id
          (child.resolve_right List.not_mem_nil))

/-- If no value waits for a statement expression, then no value waits for a statement. -/
theorem waiting_of_isStatement
    (operands : ∀ id node, program.node? id = some node ->
      ∀ child ∈ node.kind.operands, program.IsExpression child)
    (lists : program.Lists roots nodes)
    (starts : ∀ root ∈ roots, root.waiting = 0 ∨ program.IsExpression root.id)
    (unawaited : ∀ spot ∈ nodes, program.IsStmtExpr spot.id -> spot.waiting = 0)
    {spot : Spot}
    (listed : spot ∈ nodes)
    (statement : program.IsStatement spot.id) :
    spot.waiting = 0 := by
  refine (lists.level_or_isExpression operands starts unawaited spot listed).resolve_right
    ?_
  rintro ⟨node, found, expression⟩
  obtain ⟨other, otherFound, statement⟩ := statement
  obtain rfl := Option.some.inj (found.symm.trans otherFound)
  rw [statement] at expression
  cases expression

end Lists

/-! ## The labels and jumps of trees -/

/-- The signs of nodes. -/
def signs (program : Program) (nodes : List Spot) : List Sign :=
  nodes.filterMap fun spot => program.sign? spot.id

/-- The signs of the trees of nodes, in any order. -/
def Bears (program : Program) (ids : List NodeId) (signs : List Sign) : Prop :=
  ∃ nodes, program.Lists (Spot.level ids) nodes ∧ (program.signs nodes).Perm signs

theorem signs_eq (nodes : List Spot) :
    program.signs nodes = (nodes.map (·.id)).filterMap program.sign? := by
  rw [List.filterMap_map]
  rfl

theorem signs_congr
    {other : Program}
    {nodes : List Spot}
    (same : ∀ spot ∈ nodes, other.node? spot.id = program.node? spot.id) :
    other.signs nodes = program.signs nodes := by
  apply List.filterMap_congr
  intro spot member
  rw [sign?, sign?, same spot member]

namespace Bears

variable {ids more : List NodeId} {signs others : List Sign}

theorem nil : program.Bears [] [] := ⟨[], .nil, .refl _⟩

theorem append (left : program.Bears ids signs) (right : program.Bears more others) :
    program.Bears (ids ++ more) (signs ++ others) := by
  obtain ⟨nodes, lists, order⟩ := left
  obtain ⟨moreNodes, moreLists, moreOrder⟩ := right
  refine ⟨nodes ++ moreNodes, ?_, ?_⟩
  · rw [Spot.level_append]
    exact lists.append moreLists
  · rw [Program.signs, List.filterMap_append]
    exact order.append moreOrder

theorem split (bears : program.Bears (ids ++ more) signs) :
    ∃ first second, program.Bears ids first ∧ program.Bears more second ∧
      (first ++ second).Perm signs := by
  obtain ⟨nodes, lists, order⟩ := bears
  rw [Spot.level_append] at lists
  obtain ⟨first, second, left, right, rfl⟩ := lists.split
  rw [Program.signs, List.filterMap_append] at order
  exact ⟨_, _, ⟨first, left, .refl _⟩, ⟨second, right, .refl _⟩, order⟩

theorem reorder (bears : program.Bears ids signs) (order : signs.Perm others) :
    program.Bears ids others := by
  obtain ⟨nodes, lists, own⟩ := bears
  exact ⟨nodes, lists, own.trans order⟩

/-- The signs of trees do not depend on the order of the trees. -/
theorem perm (bears : program.Bears ids signs) (order : ids.Perm more) :
    program.Bears more signs := by
  obtain ⟨nodes, lists, own⟩ := bears
  obtain ⟨others, othersLists, same⟩ := lists.perm (order.map _)
  exact ⟨others, othersLists, (same.symm.filterMap _).trans own⟩

/-- The signs of trees do not depend on other nodes. -/
theorem congr
    {other : Program}
    {bound : Nat}
    (bears : program.Bears ids signs)
    (earlier : ∀ id node, program.node? id = some node ->
      ∀ child ∈ node.kind.children, child.index < id.index)
    (below : ∀ id ∈ ids, id.index < bound)
    (same : ∀ id : NodeId, id.index < bound -> other.node? id = program.node? id) :
    other.Bears ids signs := by
  obtain ⟨nodes, lists, order⟩ := bears
  have inside : ∀ spot ∈ nodes, spot.id.index < bound := by
    refine lists.index_lt earlier ?_
    intro root member
    obtain ⟨id, own, rfl⟩ := List.mem_map.mp member
    exact below id own
  have unchanged : ∀ spot ∈ nodes, other.node? spot.id = program.node? spot.id :=
    fun spot member => same spot.id (inside spot member)
  exact ⟨nodes, lists.congr unchanged, by rw [signs_congr unchanged]; exact order⟩

/-- Trees stay as they are while tables only get longer. -/
theorem extend {new : Program} (bears : program.Bears ids signs)
    (extended : program.Extends new) : new.Bears ids signs := by
  obtain ⟨nodes, lists, order⟩ := bears
  have unchanged : ∀ spot ∈ nodes, new.node? spot.id = program.node? spot.id := by
    intro spot member
    obtain ⟨node, found⟩ := lists.found spot member
    rw [found, extended.nodes _ _ found]
  exact ⟨nodes, lists.congr unchanged, by rw [signs_congr unchanged]; exact order⟩

/-- The last tree may be replaced by one that bears the same. -/
theorem replaceLast
    {new : Program}
    {old other : NodeId}
    (bears : program.Bears (ids ++ [old]) signs)
    (extended : program.Extends new)
    (step : ∀ signs, program.Bears [old] signs -> new.Bears [other] signs) :
    new.Bears (ids ++ [other]) signs := by
  obtain ⟨first, second, left, right, order⟩ := bears.split
  exact ((left.extend extended).append (step second right)).reorder order

/-- A tree that bears nothing may be added. -/
theorem concat
    {id : NodeId}
    (bears : program.Bears ids signs)
    (nothing : program.Bears [id] []) :
    program.Bears (ids ++ [id]) signs := by
  have both := bears.append nothing
  rwa [List.append_nil] at both

/-- The signs of a node are its own and those of its children. -/
theorem node
    {id : NodeId}
    {node : Node}
    (found : program.node? id = some node)
    (below : program.Bears node.kind.children signs) :
    program.Bears [id] (node.kind.sign?.toList ++ signs) := by
  obtain ⟨nodes, lists, order⟩ := below.perm node.kind.spots_perm.symm
  obtain ⟨inner, innerLists, same⟩ := @Lists.relabel _ _
    (node.kind.spots.map (Spot.raise 0)) _ lists (by simp [Function.comp_def])
  refine ⟨⟨0, id⟩ :: inner, .single found innerLists, ?_⟩
  have own : program.sign? id = node.kind.sign? := by rw [sign?, found]; rfl
  have inside :
      program.signs inner = program.signs nodes := by rw [signs_eq, same, ← signs_eq]
  have whole : program.signs (⟨0, id⟩ :: inner) =
      node.kind.sign?.toList ++ program.signs nodes := by
    rw [← inside, Program.signs, List.filterMap_cons, own]
    cases node.kind.sign? <;> rfl
  rw [whole]
  exact order.append_left _

/-- What the tree of a node bears without the node itself. -/
theorem children
    {id : NodeId}
    {node : Node}
    (bears : program.Bears [id] signs)
    (found : program.node? id = some node) :
    ∃ others, program.Bears node.kind.children others ∧
      (node.kind.sign?.toList ++ others).Perm signs := by
  obtain ⟨nodes, lists, order⟩ := bears
  obtain ⟨other, inner, otherFound, innerLists, rfl⟩ := Lists.single_cases lists
  obtain rfl := Option.some.inj (found.symm.trans otherFound)
  obtain ⟨level, levelLists, same⟩ := @Lists.relabel _ _
    (Spot.level (node.kind.spots.map (·.id))) _ innerLists (by simp [Function.comp_def])
  have own : program.sign? id = node.kind.sign? := by rw [sign?, found]; rfl
  have whole : program.signs (⟨0, id⟩ :: inner) =
      node.kind.sign?.toList ++ program.signs level := by
    rw [signs_eq level, same, ← signs_eq, Program.signs, List.filterMap_cons, own]
    cases node.kind.sign? <;> rfl
  rw [whole] at order
  exact ⟨_, Bears.perm ⟨level, levelLists, .refl _⟩ node.kind.spots_perm, order⟩

/-- A tree bears the signs of its nodes. -/
theorem mem_iff_contains
    {root : NodeId}
    {sign : Sign}
    (bears : program.Bears [root] signs) :
    sign ∈ signs ↔ ∃ id, program.Contains root id ∧ program.sign? id = some sign := by
  obtain ⟨nodes, lists, order⟩ := bears
  have inside (id : NodeId) :
      (∃ spot ∈ nodes, spot.id = id) ↔ program.Contains root id := by
    rw [lists.mem_iff_contains]
    simp [Spot.level]
  rw [← order.mem_iff, Program.signs, List.mem_filterMap]
  constructor
  · rintro ⟨spot, listed, known⟩
    exact ⟨spot.id, (inside spot.id).mp ⟨spot, listed, rfl⟩, known⟩
  · rintro ⟨id, contains, known⟩
    obtain ⟨spot, listed, rfl⟩ := (inside id).mpr contains
    exact ⟨spot, listed, known⟩

end Bears

end Program

end MiniC
