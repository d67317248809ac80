import Mathlib.Data.List.Nodup
import MiniC.Proofs.Program.Tree

/-!
# Forests of nodes

The nodes of a program are a forest: no node is a child twice, and children come before
their parents.  The roots are nodes that may still become children.  Entering a node takes
its children from the roots and gives the new node instead.

The bodies of functions are roots for good, so their trees have no node in common.
-/

namespace MiniC

/-- The body of a function. -/
def SymbolKind.body? : SymbolKind -> Option NodeId
  | .function definition => definition.body
  | _ => none

/-- In parts that have nothing twice, what two of them have is in one place. -/
theorem index_unique_of_nodup_flatMap
    {α β : Type}
    {parts : α -> List β}
    {whole : Array α}
    (nodup : (whole.toList.flatMap parts).Nodup)
    {index other : Nat}
    {first second : α}
    (found : whole[index]? = some first)
    (otherFound : whole[other]? = some second)
    {entry : β}
    (member : entry ∈ parts first)
    (otherMember : entry ∈ parts second) :
    index = other := by
  have apart := (List.nodup_flatMap.mp nodup).2
  obtain ⟨bound, rfl⟩ := Array.getElem?_eq_some_iff.mp found
  obtain ⟨otherBound, rfl⟩ := Array.getElem?_eq_some_iff.mp otherFound
  rw [List.pairwise_iff_getElem] at apart
  by_contra differ
  rcases Nat.lt_or_gt_of_ne differ with before | after
  · exact apart _ _ bound otherBound before member otherMember
  · exact apart _ _ otherBound bound after otherMember member

namespace Program

/-- The children of all nodes. -/
def offspring (program : Program) : List NodeId :=
  program.nodes.toList.flatMap (·.kind.children)

/-- The bodies of all functions. -/
def bodies (program : Program) : List NodeId :=
  program.symbols.toList.flatMap (·.kind.body?.toList)

/-- Nodes of which none is a child twice, and roots that are no children. -/
structure Forest (program : Program) (roots : List NodeId) : Prop where
  nodup : (program.offspring ++ roots).Nodup
  there : ∀ root ∈ roots, root.index < program.nodes.size
  earlier : ∀ parent child, program.Child parent child -> child.index < parent.index

variable {program more : Program} {roots others : List NodeId}

theorem mem_offspring {child : NodeId} :
    child ∈ program.offspring ↔ ∃ parent, program.Child parent child := by
  unfold offspring
  rw [List.mem_flatMap]
  constructor
  · rintro ⟨node, listed, member⟩
    obtain ⟨index, found⟩ := List.getElem?_of_mem listed
    exact ⟨⟨index⟩, node, by simpa [node?] using found, member⟩
  · rintro ⟨parent, node, found, member⟩
    exact ⟨node, Array.mem_toList_iff.mpr (Array.mem_of_getElem? found), member⟩

namespace Forest

/-- A forest has to do with nodes only. -/
theorem of_nodes_eq (forest : program.Forest roots) (same : more.nodes = program.nodes) :
    more.Forest roots := by
  obtain ⟨nodup, there, earlier⟩ := forest
  unfold offspring at nodup
  rw [← same] at nodup there
  refine ⟨nodup, there, fun parent child => ?_⟩
  rintro ⟨node, found, member⟩
  unfold node? at found
  rw [same] at found
  exact earlier parent child ⟨node, found, member⟩

/-- Roots may be given up, and their order does not matter. -/
theorem fewer (forest : program.Forest roots) (fewer : others.Subperm roots) :
    program.Forest others where
  nodup := by
    obtain ⟨kept, order, part⟩ := (List.subperm_append_left program.offspring).mpr fewer
    exact order.nodup_iff.mp (forest.nodup.sublist part)
  there := fun root member => forest.there root (fewer.subset member)
  earlier := forest.earlier

theorem empty : Program.empty.Forest [] where
  nodup := List.nodup_nil
  there := by simp
  earlier := by
    rintro parent child ⟨node, found, -⟩
    cases found

/-- Children are nodes that are there. -/
theorem index_lt_of_mem (forest : program.Forest roots) {id : NodeId}
    (member : id ∈ program.offspring ++ roots) : id.index < program.nodes.size := by
  rcases List.mem_append.mp member with child | root
  · obtain ⟨parent, step⟩ := mem_offspring.mp child
    have order := forest.earlier parent id step
    obtain ⟨node, found, -⟩ := step
    obtain ⟨bound, -⟩ := Array.getElem?_eq_some_iff.mp found
    exact Nat.lt_trans order bound
  · exact forest.there id root

/-- A node is entered above roots, and becomes a root. -/
theorem push (node : Node) (forest : program.Forest (node.kind.children ++ others)) :
    Forest { program with nodes := program.nodes.push node }
      (⟨program.nodes.size⟩ :: others) where
  nodup := by
    have fresh :
        ⟨program.nodes.size⟩ ∉ program.offspring ++ (node.kind.children ++ others) :=
      fun member => Nat.lt_irrefl _ (forest.index_lt_of_mem member)
    have whole : offspring { program with nodes := program.nodes.push node } =
        program.offspring ++ node.kind.children := by
      simp [offspring]
    rw [whole, List.perm_middle.nodup_iff, List.append_assoc]
    exact List.nodup_cons.mpr ⟨fresh, forest.nodup⟩
  there := by
    intro root member
    rw [Array.size_push]
    rcases List.mem_cons.mp member with rfl | other
    · exact Nat.lt_succ_self _
    · exact Nat.lt_succ_of_lt (forest.there root (List.mem_append_right _ other))
  earlier := by
    rintro parent child ⟨entry, found, member⟩
    unfold node? at found
    rw [Array.getElem?_push] at found
    split at found
    · rename_i new
      obtain rfl := Option.some.inj found
      rw [new]
      exact forest.there child (List.mem_append_left _ member)
    · exact forest.earlier parent child ⟨entry, found, member⟩

/-- A block that is a root may give up its statements, which become roots. -/
theorem takeBody
    {block : NodeId}
    {node : Node}
    {body : List NodeId}
    (forest : program.Forest (block :: others))
    (found : program.node? block = some node)
    (kind : node.kind = .block body) :
    Forest { program with
      nodes := program.nodes.modify block.index fun node =>
        { node with kind := .block [] } }
      (body ++ others) where
  nodup := by
    obtain ⟨bound, same⟩ := Array.getElem?_eq_some_iff.mp found
    obtain ⟨front, own, back, whole, position, changed⟩ := List.exists_of_modify
      (fun node : Node => { node with kind := .block [] })
      (l := program.nodes.toList) bound
    obtain rfl : own = node := by
      rw [← same, ← Array.getElem_toList]
      simp [whole, ← position]
    have before : program.offspring =
        front.flatMap (·.kind.children) ++ (body ++ back.flatMap (·.kind.children)) := by
      simp [offspring, whole, kind, NodeKind.children]
    have after : (program.nodes.modify block.index
          fun node => { node with kind := .block [] }).toList.flatMap (·.kind.children) =
        front.flatMap (·.kind.children) ++ back.flatMap (·.kind.children) := by
      rw [Array.toList_modify, changed]
      simp [NodeKind.children]
    have nodup :=
      forest.nodup.sublist ((List.sublist_cons_self block others).append_left _)
    rw [before] at nodup
    unfold offspring
    rw [after]
    refine (List.Perm.nodup_iff ?_).mp nodup
    simp only [List.append_assoc]
    refine List.Perm.append_left _ ?_
    rw [← List.append_assoc, ← List.append_assoc]
    exact List.perm_append_comm.append_right _
  there := by
    intro root member
    rw [Array.size_modify]
    rcases List.mem_append.mp member with own | other
    · exact forest.index_lt_of_mem
        (List.mem_append_left _ (mem_offspring.mpr ⟨block, node, found, by simpa [kind]⟩))
    · exact forest.there root (List.mem_cons_of_mem block other)
  earlier := by
    rintro parent child ⟨entry, reached, member⟩
    unfold node? at reached
    rw [Array.getElem?_modify] at reached
    split at reached
    · obtain ⟨_, -, rfl⟩ := Option.map_eq_some_iff.mp reached
      cases member
    · exact forest.earlier parent child ⟨entry, reached, member⟩

/-! ## Trees of a forest -/

/-- A node is a child of one node at most. -/
theorem parent_unique
    (forest : program.Forest roots)
    {parent other child : NodeId}
    (first : program.Child parent child)
    (second : program.Child other child) :
    parent = other := by
  obtain ⟨node, found, member⟩ := first
  obtain ⟨otherNode, otherFound, otherMember⟩ := second
  exact congrArg NodeId.mk (index_unique_of_nodup_flatMap
    (List.nodup_append.mp forest.nodup).1 found otherFound member otherMember)

/-- A node has no child twice. -/
theorem children_nodup (forest : program.Forest roots) {id : NodeId} {node : Node}
    (found : program.node? id = some node) : node.kind.children.Nodup :=
  (List.nodup_flatMap.mp (List.nodup_append.mp forest.nodup).1).1 node
    (Array.mem_toList_iff.mpr (Array.mem_of_getElem? found))

theorem not_child_root (forest : program.Forest roots) {root parent : NodeId}
    (member : root ∈ roots) : ¬program.Child parent root := fun step =>
  (List.nodup_append.mp forest.nodup).2.2 root (mem_offspring.mpr ⟨parent, step⟩)
    root member rfl

/-- No node is in the trees of two roots.  From a common node the paths to the roots are
the same, for each node on them has one parent. -/
theorem root_unique
    (forest : program.Forest roots)
    {root other id : NodeId}
    (member : root ∈ roots)
    (otherMember : other ∈ roots)
    (first : program.Contains root id)
    (second : program.Contains other id) :
    root = other := by
  induction first with
  | refl =>
      rcases Relation.ReflTransGen.cases_tail second with same | ⟨parent, -, step⟩
      · exact same
      · exact absurd step (forest.not_child_root member)
  | @tail parent child _ step hypothesis =>
      rcases Relation.ReflTransGen.cases_tail
        second with same | ⟨otherParent, path, otherStep⟩
      · exact absurd (same ▸ step) (forest.not_child_root otherMember)
      · exact hypothesis (forest.parent_unique otherStep step ▸ path)

end Forest

/-! ## Bodies of functions -/

theorem mem_bodies
    {id : SymbolId}
    {symbol : Symbol}
    {body : NodeId}
    (found : program.symbol? id = some symbol)
    (known : symbol.kind.body? = some body) :
    body ∈ program.bodies :=
  List.mem_flatMap.mpr ⟨symbol, Array.mem_toList_iff.mpr (Array.mem_of_getElem? found),
    by simp [known]⟩

/-- Changing the kind of a symbol takes away the body it had, and may give it another. -/
theorem bodies_setSymbolKind (program : Program) (id : SymbolId) (kind : SymbolKind) :
    (program.setSymbolKind id kind).bodies.Subperm
      (kind.body?.toList ++ program.bodies) := by
  unfold bodies setSymbolKind
  rw [Array.toList_modify]
  generalize program.symbols.toList = symbols
  by_cases bound : id.index < symbols.length
  · obtain ⟨front, own, back, rfl, -, changed⟩ := List.exists_of_modify
      (fun symbol : Symbol => { symbol with kind := kind }) bound
    rw [changed]
    simp only [List.flatMap_append, List.flatMap_cons]
    refine List.Perm.subperm_right (List.perm_append_comm_assoc _ _ _) |>.mpr ?_
    exact (((List.sublist_append_right _ _).append_left _).append_left _).subperm
  · rw [List.modify_eq_self (Nat.le_of_not_lt bound)]
    exact (List.sublist_append_right _ _).subperm

/-- A symbol that keeps its body may change otherwise. -/
theorem bodies_setSymbolKind_of_eq
    (program : Program)
    {id : SymbolId}
    {symbol : Symbol}
    (found : program.symbol? id = some symbol)
    {kind : SymbolKind}
    (same : kind.body? = symbol.kind.body?) :
    (program.setSymbolKind id kind).bodies = program.bodies := by
  obtain ⟨bound, rfl⟩ := Array.getElem?_eq_some_iff.mp found
  obtain ⟨front, own, back, whole, position, changed⟩ := List.exists_of_modify
    (fun symbol : Symbol => { symbol with kind := kind })
    (l := program.symbols.toList) bound
  have isOwn : program.symbols[id.index] = own := by
    rw [← Array.getElem_toList]
    simp [whole, ← position]
  rw [isOwn] at same
  unfold bodies setSymbolKind
  rw [Array.toList_modify, changed, whole]
  simp [same]

/-- Functions whose bodies have a node in common are one. -/
theorem Forest.function_unique
    (forest : program.Forest program.bodies)
    {first second : SymbolId}
    {symbol otherSymbol : Symbol}
    {body otherBody id : NodeId}
    (found : program.symbol? first = some symbol)
    (otherFound : program.symbol? second = some otherSymbol)
    (known : symbol.kind.body? = some body)
    (otherKnown : otherSymbol.kind.body? = some otherBody)
    (inside : program.Contains body id)
    (otherInside : program.Contains otherBody id) :
    first = second := by
  obtain rfl := forest.root_unique (mem_bodies found known)
    (mem_bodies otherFound otherKnown) inside otherInside
  have own : body ∈ symbol.kind.body?.toList := by simp [known]
  have otherOwn : body ∈ otherSymbol.kind.body?.toList := by simp [otherKnown]
  exact congrArg SymbolId.mk (index_unique_of_nodup_flatMap
    (List.nodup_append.mp forest.nodup).2.1 found otherFound own otherOwn)

end Program
end MiniC
