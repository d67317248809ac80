import MiniC.Proofs.Program.Tree

/-!
# Lvalues

An object has an address, and an expression that stands for an object is an lvalue: a
variable, what a pointer points to, or a member of an lvalue.  Some nodes need the address
of a child: what has its address taken, what is assigned to, and what has a member
selected.

Code is generated for the children of a node in a fixed order, so the nodes whose address
is needed come in an order too.  An address that is computed from others comes behind
them.
-/

namespace MiniC

/-- What code is generated for: the address of an object, or its value or effect. -/
inductive Use
  | address
  | value
  deriving DecidableEq

namespace NodeKind

/-- The children that have to be lvalues. -/
def targets : NodeKind -> List NodeId
  | addr operand => [operand]
  | assign lhs _ => [lhs]
  | member base _ _ => [base]
  | _ => []

/-- The children in the order of their code, with what each is needed for. -/
def steps : NodeKind -> List (Use × NodeId)
  | addr operand => [(.address, operand)]
  | assign lhs rhs => [(.address, lhs), (.value, rhs)]
  | member base _ _ => [(.address, base)]
  | kind => kind.spots.map fun spot => (.value, spot.id)

/-- The kinds that have an address if what they are made of has. -/
def isPlace : NodeKind -> Bool
  | var _ | deref _ | member _ _ _ => true
  | _ => false

/-- Whether the address of a node is needed, given what the node is needed for.  The value
of a variable or a member is read from its address. -/
def needsAddress (kind : NodeKind) : Use -> Bool
  | .address => true
  | .value =>
      match kind with
      | var _ | member _ _ _ => true
      | _ => false

theorem mem_children_of_mem_steps {kind : NodeKind} {step : Use × NodeId}
    (member : step ∈ kind.steps) : step.2 ∈ kind.children := by
  rw [← mem_spots]
  cases kind with
  | addr | assign | member =>
      simp only [steps, List.mem_cons, List.not_mem_nil, or_false] at member
      rcases member with rfl | rfl <;> simp [spots, Spot.level, Spot.stacked]
  | _ =>
      obtain ⟨spot, listed, rfl⟩ := List.mem_map.mp member
      exact ⟨spot, listed, rfl⟩

theorem exists_mem_steps {kind : NodeKind} {child : NodeId}
    (member : child ∈ kind.children) :
    ∃ use, (use, child) ∈ kind.steps := by
  cases kind with
  | addr | member =>
      obtain rfl := List.mem_singleton.mp member
      exact ⟨.address, List.mem_cons_self⟩
  | assign lhs rhs =>
      rcases List.mem_cons.mp member with rfl | second
      · exact ⟨.address, List.mem_cons_self⟩
      · obtain rfl := List.mem_singleton.mp second
        exact ⟨.value, List.mem_cons_of_mem _ List.mem_cons_self⟩
  | _ =>
      obtain ⟨spot, listed, rfl⟩ := mem_spots.mpr member
      exact ⟨.value, List.mem_map_of_mem listed⟩

theorem mem_targets {kind : NodeKind} {child : NodeId} :
    child ∈ kind.targets ↔ (.address, child) ∈ kind.steps := by
  cases kind with
  | addr | assign | member => simp [targets, steps]
  | _ => simp [targets, steps]

theorem steps_of_plain {kind : NodeKind} (plain : kind.targets = []) :
    kind.steps = (kind.spots.map (·.id)).map fun id => (.value, id) := by
  cases kind with
  | addr | assign | member => cases plain
  | _ => simp [steps]

theorem map_id_spots_binary (op : BinaryOp) (lhs rhs : NodeId) :
    (binary op lhs rhs).spots.map (·.id) = [lhs, rhs] := by
  cases op <;> rfl

end NodeKind

namespace Program

/-- The expressions that stand for an object. -/
inductive Lvalue (program : Program) : NodeId -> Prop
  | var {id node symbol} (found : program.node? id = some node)
      (kind : node.kind = .var symbol) : Lvalue program id
  | deref {id node operand} (found : program.node? id = some node)
      (kind : node.kind = .deref operand) : Lvalue program id
  | member {id node base aggregate index} (found : program.node? id = some node)
      (kind : node.kind = .member base aggregate index)
      (inner : Lvalue program base) : Lvalue program id

/-- The nodes whose address is needed for a use of a node of at most a depth, in the order
of their code.  What cannot have an address is given up before its children are looked
at. -/
def addressOrder (program : Program) : Nat -> Use -> NodeId -> List NodeId
  | 0, _, _ => []
  | depth + 1, use, id =>
      match program.node? id with
      | none => []
      | some node =>
          let inner := node.kind.steps.flatMap fun step =>
            program.addressOrder depth step.1 step.2
          if node.kind.needsAddress use then
            if node.kind.isPlace then inner ++ [id] else id :: inner
          else inner

/-- The nodes whose address is needed for the functions of a program, in the order of
their code. -/
def addresses (program : Program) : List NodeId :=
  program.definitions.flatMap fun definition =>
    program.addressOrder (program.nodes.size + 1) .value definition.body

/-- Every target in the tree of a node is an lvalue. -/
def TargetsAreLvalues (program : Program) (id : NodeId) : Prop :=
  ∀ other node, program.Contains id other -> program.node? other = some node ->
    ∀ target ∈ node.kind.targets, program.Lvalue target

/-- A node is the first of some that is no lvalue. -/
def FirstNonLvalue (program : Program) (ids : List NodeId) (id : NodeId) : Prop :=
  ∃ before after, ids = before ++ id :: after ∧
    (∀ earlier ∈ before, program.Lvalue earlier) ∧ ¬program.Lvalue id

section Lvalues

variable {program : Program} {id : NodeId} {node : Node}

/-- A node is an lvalue if its kind can have an address and its target has one. -/
theorem lvalue_iff (found : program.node? id = some node) :
    program.Lvalue id ↔
      node.kind.isPlace = true ∧ ∀ inner ∈ node.kind.targets, program.Lvalue inner := by
  constructor
  · rintro (⟨there, kind⟩ | ⟨there, kind⟩ | ⟨there, kind, inner⟩)
    all_goals
      obtain rfl := Option.some.inj (found.symm.trans there)
      simp [kind, NodeKind.isPlace, NodeKind.targets]
    exact inner
  · rintro ⟨place, inner⟩
    cases kind : node.kind with
    | var => exact .var found kind
    | deref => exact .deref found kind
    | member base =>
        refine .member found kind (inner base ?_)
        simp [kind, NodeKind.targets]
    | _ => simp [kind, NodeKind.isPlace] at place

namespace FirstNonLvalue

variable {first second : List NodeId}

theorem append_right (found : program.FirstNonLvalue first id) (second : List NodeId) :
    program.FirstNonLvalue (first ++ second) id := by
  obtain ⟨before, after, rfl, lvalues, not⟩ := found
  exact ⟨before, after ++ second, by simp, lvalues, not⟩

theorem append_left (lvalues : ∀ earlier ∈ first, program.Lvalue earlier)
    (found : program.FirstNonLvalue second id) :
    program.FirstNonLvalue (first ++ second) id := by
  obtain ⟨before, after, rfl, others, not⟩ := found
  refine ⟨first ++ before, after, by simp, ?_, not⟩
  exact List.forall_mem_append.mpr ⟨lvalues, others⟩

theorem head (not : ¬program.Lvalue id) (rest : List NodeId) :
    program.FirstNonLvalue (id :: rest) id :=
  ⟨[], rest, rfl, by simp, not⟩

theorem mem {ids : List NodeId} (found : program.FirstNonLvalue ids id) :
    id ∈ ids ∧ ¬program.Lvalue id := by
  obtain ⟨before, after, rfl, -, not⟩ := found
  exact ⟨by simp, not⟩

/-- Only one node is the first. -/
theorem unique
    {ids : List NodeId}
    {other : NodeId}
    (found : program.FirstNonLvalue ids id)
    (again : program.FirstNonLvalue ids other) :
    id = other := by
  obtain ⟨before, after, rfl, lvalues, not⟩ := found
  induction before with
  | nil =>
      obtain ⟨front, rest, same, others, -⟩ := again
      cases front with
      | nil => exact (List.cons.inj same).1
      | cons head tail =>
          obtain rfl := (List.cons.inj same).1
          exact absurd (others id List.mem_cons_self) not
  | cons head tail hypothesis =>
      obtain ⟨lvalue, later⟩ := List.forall_mem_cons.mp lvalues
      refine hypothesis ?_ later
      obtain ⟨front, rest, same, others, otherNot⟩ := again
      cases front with
      | nil =>
          obtain rfl := (List.cons.inj same).1
          exact absurd lvalue otherNot
      | cons next front =>
          exact ⟨front, rest, (List.cons.inj same).2,
            (List.forall_mem_cons.mp others).2, otherNot⟩

end FirstNonLvalue

/-! ## Nodes whose address is needed -/

theorem addressOrder_of_found (found : program.node? id = some node)
    (depth : Nat) (use : Use) :
    program.addressOrder (depth + 1) use id =
      let inner :=
        node.kind.steps.flatMap fun step => program.addressOrder depth step.1 step.2
      if node.kind.needsAddress use then
        if node.kind.isPlace then inner ++ [id] else id :: inner
      else inner := by
  rw [addressOrder, found]

/-- A node without targets needs what its children need for their values. -/
theorem addressOrder_of_plain
    (found : program.node? id = some node)
    (free : node.kind.needsAddress .value = false)
    (plain : node.kind.targets = [])
    (depth : Nat) :
    program.addressOrder (depth + 1) .value id =
      (node.kind.spots.map (·.id)).flatMap (program.addressOrder depth .value) := by
  rw [addressOrder_of_found found]
  simp only [free, NodeKind.steps_of_plain plain, List.flatMap_map,
    Bool.false_eq_true, if_false]

/-- A depth that a node does not reach makes no difference. -/
theorem addressOrder_succ
    (earlier : ∀ id node, program.node? id = some node ->
      ∀ child ∈ node.kind.children, child.index < id.index)
    {depth : Nat}
    (use : Use)
    (below : id.index < depth) :
    program.addressOrder (depth + 1) use id = program.addressOrder depth use id := by
  induction depth generalizing use id with
  | zero => exact absurd below (Nat.not_lt_zero _)
  | succ depth hypothesis =>
      rw [addressOrder, addressOrder]
      cases found : program.node? id with
      | none => rfl
      | some node =>
          have inner : node.kind.steps.flatMap
                (fun step => program.addressOrder (depth + 1) step.1 step.2) =
              node.kind.steps.flatMap fun step =>
                program.addressOrder depth step.1 step.2 := by
            refine List.flatMap_congr fun step member => ?_
            have before :=
              earlier id node found _ (NodeKind.mem_children_of_mem_steps member)
            exact hypothesis step.1 (by omega)
          dsimp only
          rw [inner]

/-- The targets in a tree are those of its root and those in the trees of the children. -/
theorem targetsAreLvalues_iff (found : program.node? id = some node) :
    program.TargetsAreLvalues id ↔
      (∀ target ∈ node.kind.targets, program.Lvalue target) ∧
        ∀ child ∈ node.kind.children, program.TargetsAreLvalues child := by
  constructor
  · intro all
    refine ⟨all id node .refl found, fun child member other inner contains => ?_⟩
    exact all other inner (.head ⟨node, found, member⟩ contains)
  · rintro ⟨own, others⟩ other inner contains there
    rcases Relation.ReflTransGen.cases_head
      contains with rfl | ⟨child, ⟨_, known, member⟩, rest⟩
    · obtain rfl := Option.some.inj (found.symm.trans there)
      exact own
    · obtain rfl := Option.some.inj (found.symm.trans known)
      exact others child member other inner rest there

/-- The value of a variable or a member has its address whenever its target has one. -/
theorem lvalue_of_needsAddress
    (found : program.node? id = some node)
    (needed : node.kind.needsAddress .value = true)
    (inner : ∀ target ∈ node.kind.targets, program.Lvalue target) :
    program.Lvalue id := by
  refine (lvalue_iff found).mpr ⟨?_, inner⟩
  cases kind : node.kind with
  | var | member => rfl
  | _ => simp [kind, NodeKind.needsAddress] at needed

/-- All addresses that a node needs can be had exactly if all targets in its tree are
lvalues, and the node itself is one if it is needed as such. -/
theorem forall_mem_addressOrder
    (nodes : ∀ id node, program.node? id = some node -> ∀ child ∈ node.kind.children,
      child.index < id.index ∧ ∃ inner, program.node? child = some inner)
    {depth : Nat}
    {use : Use}
    (found : program.node? id = some node)
    (below : id.index < depth) :
    (∀ other ∈ program.addressOrder depth use id, program.Lvalue other) ↔
      (use = .address -> program.Lvalue id) ∧ program.TargetsAreLvalues id := by
  induction depth generalizing use id node with
  | zero => exact absurd below (Nat.not_lt_zero _)
  | succ depth hypothesis =>
      have step {step : Use × NodeId} (listed : step ∈ node.kind.steps) :
          (∀ other ∈ program.addressOrder depth step.1 step.2, program.Lvalue other) ↔
            (step.1 = .address -> program.Lvalue step.2) ∧
            program.TargetsAreLvalues step.2 := by
        obtain ⟨before, inner, there⟩ :=
          nodes id node found step.2 (NodeKind.mem_children_of_mem_steps listed)
        exact hypothesis there (by omega)
      -- Each step asks for a target or looks into the tree of a child.
      have steps : (∀ other ∈ node.kind.steps.flatMap fun step =>
            program.addressOrder depth step.1 step.2, program.Lvalue other) ↔
          program.TargetsAreLvalues id := by
        rw [targetsAreLvalues_iff found]
        simp only [List.mem_flatMap, forall_exists_index, and_imp]
        constructor
        · intro all
          refine ⟨fun target listed => ?_, fun child member => ?_⟩
          · have asked := NodeKind.mem_targets.mp listed
            exact ((step asked).mp fun other => all other _ asked).1 rfl
          · obtain ⟨use, listed⟩ := NodeKind.exists_mem_steps member
            exact ((step listed).mp fun other => all other _ listed).2
        · rintro ⟨own, others⟩ other ⟨use, child⟩ listed
          have inside := NodeKind.mem_children_of_mem_steps listed
          refine (step listed).mpr ⟨?_, others child inside⟩ other
          rintro rfl
          exact own child (NodeKind.mem_targets.mpr listed)
      rw [addressOrder_of_found found]
      dsimp only
      split
      · rename_i needed
        have both : program.Lvalue id ∧ program.TargetsAreLvalues id ↔
            (use = .address -> program.Lvalue id) ∧ program.TargetsAreLvalues id := by
          refine and_congr_left fun all => ?_
          cases use with
          | address => simp
          | value => simp [lvalue_of_needsAddress found needed (all id node .refl found)]
        split
        · rw [List.forall_mem_append, List.forall_mem_singleton, steps, and_comm, both]
        · rw [List.forall_mem_cons, steps, both]
      · rename_i free
        have value : use ≠ .address := by
          rintro rfl
          exact free rfl
        simp only [steps, value, false_imp_iff, true_and]

end Lvalues
end Program
end MiniC
