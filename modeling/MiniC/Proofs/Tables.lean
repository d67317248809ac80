import MiniC.Proofs.Compile
import MiniC.Proofs.Grammar.Arena

/-!
# The tables of a parsed program

In the table of types every recorded size is the one that the layout rules give for the
final entries.  The table of nodes is a forest, in which the functions have trees of their
own.
-/

namespace MiniC

/-- The program in a source file is whole. -/
theorem whole_of_parseFile {file : SourceFile} {program : Program}
    (accepted : parseFile file = .ok program) : Grammar.Whole program := by
  change Except.bind (tokenize file) parse = .ok program at accepted
  cases cut : tokenize file with
  | error error =>
      rw [cut] at accepted
      cases accepted
  | ok tokens =>
      rw [cut] at accepted
      exact whole_of_parse accepted

/-! ## Types -/

/-- In a parsed program every type has a size that is a multiple of its alignment, arrays
are as long as their elements together, and structs and unions are laid out by the rules
for the types of their members.  No type contains itself. -/
theorem parsed_types_are_consistent
    {file : SourceFile}
    {program : Program}
    (accepted : parseFile file = .ok program) :
    (∀ id ty, program.types.get? id = some ty ->
      0 ≤ ty.size ∧ ty.align ∈ [1, 2, 4, 8] ∧ ty.size % ty.align = 0 ∧
      (∀ base length, ty.kind = .array base length ->
        ∃ element, program.types.get? base = some element ∧
          ty.size = length * element.size) ∧
      ∀ form members, ty.kind = .aggregate form members ->
        program.types.LaidOut form members ty.size ty.align) ∧
    ∀ id, ¬Relation.TransGen program.types.Holds id id := by
  have consistent := (whole_of_parseFile accepted).types
  refine ⟨fun id ty found => ?_, consistent.not_holds_self⟩
  have sized := consistent.size_nonneg found
  have fits := consistent.entries id ty found sized
  refine ⟨sized, fits.align, fits.multiple, fun base length kind => ?_, fits.members⟩
  obtain ⟨element, there, -, size⟩ := fits.array base length kind
  exact ⟨element, there, size⟩

/-- A file with an array of structs that refer to their own type. -/
def linkFile : SourceFile := ⟨"link.c", "struct s { char c; struct s *p; } x[2];"⟩

/-- The members of the struct in that file. -/
def linkMembers : List Member := [⟨"c", .char, 0, 4⟩, ⟨"p", ⟨7⟩, 8, 9⟩]

/-- In that file the struct is laid out by the rules, although it had no members when the
pointer to it was entered. -/
theorem link_types_are_consistent :
    ∃ program, parseFile linkFile = .ok program ∧
      program.types.get? ⟨6⟩ = some ⟨.aggregate .struct linkMembers, 16, 8, some 2⟩ ∧
      program.types.LaidOut .struct linkMembers 16 8 ∧
      ¬Relation.TransGen program.types.Holds ⟨6⟩ ⟨6⟩ := by
  have known : (parseFile linkFile).toOption.map (·.types.get? ⟨6⟩) =
      some (some ⟨.aggregate .struct linkMembers, 16, 8, some 2⟩) := by decide +kernel
  obtain ⟨program, accepted, found⟩ := exists_eq_ok_of_map known
  obtain ⟨types, apart⟩ := parsed_types_are_consistent accepted
  exact ⟨program, accepted, found, (types _ _ found).2.2.2.2 _ _ rfl, apart _⟩

/-! ## Nodes -/

/-- The nodes of a parsed program are a forest: a node is a child of one node at most and
occurs there once, children come before their parents, bodies of functions are no
children, and no node is in the bodies of two functions. -/
theorem parsed_nodes_form_forest
    {file : SourceFile}
    {program : Program}
    (accepted : parseFile file = .ok program) :
    (∀ parent other child, program.Child parent child -> program.Child other child ->
      parent = other) ∧
    (∀ id node, program.node? id = some node -> node.kind.children.Nodup) ∧
    (∀ parent child, program.Child parent child -> child.index < parent.index) ∧
    (∀ id symbol body, program.symbol? id = some symbol ->
      symbol.kind.body? = some body -> ∀ parent, ¬program.Child parent body) ∧
    ∀ first second symbol otherSymbol body otherBody, first ≠ second ->
      program.symbol? first = some symbol -> symbol.kind.body? = some body ->
      program.symbol? second = some otherSymbol ->
      otherSymbol.kind.body? = some otherBody ->
      ∀ id, program.Contains body id -> ¬program.Contains otherBody id := by
  have forest : program.Forest program.bodies := (whole_of_parseFile accepted).forest
  refine ⟨fun _ _ _ => forest.parent_unique, fun _ _ => forest.children_nodup,
    forest.earlier, fun id symbol body found known parent =>
      forest.not_child_root (Program.mem_bodies found known), ?_⟩
  intro first second symbol otherSymbol body otherBody apart found known
    otherFound otherKnown id inside otherInside
  exact apart (forest.function_unique found otherFound known otherKnown
    inside otherInside)

/-- A file with a statement expression and two functions. -/
def pairFile : SourceFile :=
  ⟨"pair.c", "int f() { return ({ 1; }); } int g() { return 2; }"⟩

/-- In that file only the statement expression, at index 3, has the statement of the block
that it was made of; and the trees of the two functions have no node in common. -/
theorem pair_nodes_form_forest :
    ∃ program, parseFile pairFile = .ok program ∧
      (∀ parent, program.Child parent ⟨1⟩ -> parent = ⟨3⟩) ∧
      ∀ id, program.Contains ⟨6⟩ id -> ¬program.Contains ⟨10⟩ id := by
  have known : (parseFile pairFile).toOption.map (fun program =>
      ((program.node? ⟨3⟩).map (·.kind), (program.symbol? ⟨0⟩).bind (·.kind.body?),
        (program.symbol? ⟨1⟩).bind (·.kind.body?))) =
      some (some (.stmtExpr [⟨1⟩]), some ⟨6⟩, some ⟨10⟩) := by decide +kernel
  obtain ⟨program, accepted, facts⟩ := exists_eq_ok_of_map known
  obtain ⟨expression, bodies⟩ := Prod.mk.inj facts
  obtain ⟨first, second⟩ := Prod.mk.inj bodies
  obtain ⟨unique, -, -, -, apart⟩ := parsed_nodes_form_forest accepted
  obtain ⟨node, there, kind⟩ := Option.map_eq_some_iff.mp expression
  obtain ⟨symbol, found, body⟩ := Option.bind_eq_some_iff.mp first
  obtain ⟨otherSymbol, otherFound, otherBody⟩ := Option.bind_eq_some_iff.mp second
  have child : program.Child ⟨3⟩ ⟨1⟩ := ⟨node, there, by simp [kind, NodeKind.children]⟩
  exact ⟨program, accepted, fun parent step => unique _ _ _ step child,
    apart ⟨0⟩ ⟨1⟩ _ _ _ _ (by decide) found body otherFound otherBody⟩

end MiniC
