import MiniC.Proofs.Grammar.Meets
import MiniC.Proofs.Ty.Layout

/-!
# The invariant of the parser

`Inv tokens base state` holds of every state that the parser passes through.  The program
built so far keeps the rules of `MiniC.Proofs.Program.Rules`, the open scopes bind names
to entries that are there, and the nodes from `base` on belong to the function being
parsed.

There is one lemma for each primitive change of the state.  All that is added to the
program at once goes through `Inv.extend`.
-/

namespace MiniC
namespace Grammar

/-! ## Scopes -/

/-- What a name may be bound to, given the locals of the function being parsed. -/
def BindingRule (program : Program) (locals : List SymbolId) (name : String) :
    Binding -> Prop
  | .object id => ∃ symbol, program.symbol? id = some symbol ∧ symbol.name = name ∧
      (symbol.isLocal = true -> id ∈ locals)
  | .typedef ty => program.types.Has ty
  | .enumConstant ty _ => ∃ entry, program.types.get? ty = some entry ∧
      entry.isInteger = true

/-- What the names of a scope may be bound to. -/
structure FrameRule (program : Program) (locals : List SymbolId)
    (frame : Frame) : Prop where
  vars : ∀ name binding, (name, binding) ∈ frame.vars ->
    BindingRule program locals name binding
  tags : ∀ name ty, (name, ty) ∈ frame.tags -> program.types.Has ty

/-- What the names of the open scopes may be bound to.  The file scope knows no locals. -/
structure ScopesRule (program : Program) (locals : List SymbolId) (scopes : Scopes) :
    Prop where
  file : FrameRule program [] scopes.file
  blocks : ∀ frame ∈ scopes.blocks, FrameRule program locals frame

section Scopes

variable {old new program : Program} {locals more : List SymbolId}

theorem BindingRule.grow
    {name : String}
    {binding : Binding}
    (rule : BindingRule old locals name binding)
    (grows : old.Grows new)
    (subset : locals ⊆ more) :
    BindingRule new more name binding := by
  cases binding with
  | object id =>
      obtain ⟨symbol, found, named, inside⟩ := rule
      obtain ⟨refined, reached, refines⟩ := grows.symbols id symbol found
      refine ⟨refined, reached, refines.name.trans named,
        fun isLocal => subset (inside ?_)⟩
      rw [← refines.isLocal]
      exact isLocal
  | typedef ty => exact grows.has rule
  | enumConstant ty value =>
      obtain ⟨entry, found, integer⟩ := rule
      exact ⟨entry, grows.get?_of_scalar found (Ty.isAggregate_of_isInteger integer),
        integer⟩

theorem FrameRule.grow
    {frame : Frame}
    (rule : FrameRule old locals frame)
    (grows : old.Grows new)
    (subset : locals ⊆ more) :
    FrameRule new more frame where
  vars := fun name binding member => (rule.vars name binding member).grow grows subset
  tags := fun name ty member => grows.has (rule.tags name ty member)

theorem ScopesRule.grow
    {scopes : Scopes}
    (rule : ScopesRule old locals scopes)
    (grows : old.Grows new)
    (subset : locals ⊆ more) :
    ScopesRule new more scopes where
  file := rule.file.grow grows (fun _ member => member)
  blocks := fun frame member => (rule.blocks frame member).grow grows subset

/-- A name can be bound to what is no local of a function in any scope. -/
theorem ScopesRule.declareVariable
    {scopes : Scopes}
    (rule : ScopesRule program locals scopes)
    (name : String)
    {binding : Binding}
    (fine : BindingRule program [] name binding) :
    ScopesRule program locals (scopes.declareVariable name binding) := by
  have refl := Program.Grows.refl program
  obtain ⟨file, blocks⟩ := scopes
  cases blocks with
  | nil =>
      refine ⟨⟨?_, rule.file.tags⟩, fun frame member => by cases member⟩
      intro other found member
      rcases List.mem_cons.mp member with equal | earlier
      · cases equal
        exact fine
      · exact rule.file.vars other found earlier
  | cons block outer =>
      refine ⟨rule.file, ?_⟩
      intro frame member
      rcases List.mem_cons.mp member with rfl | further
      · have inner := rule.blocks block List.mem_cons_self
        refine ⟨?_, inner.tags⟩
        intro other found member
        rcases List.mem_cons.mp member with equal | earlier
        · cases equal
          exact fine.grow refl (List.nil_subset _)
        · exact inner.vars other found earlier
      · exact rule.blocks frame (List.mem_cons_of_mem block further)

/-- In a block a name can be bound to a local of the function. -/
theorem ScopesRule.declareLocal
    {scopes : Scopes}
    (rule : ScopesRule program locals scopes)
    (inside : scopes.blocks ≠ [])
    (name : String)
    {binding : Binding}
    (fine : BindingRule program locals name binding) :
    ScopesRule program locals (scopes.declareVariable name binding) := by
  obtain ⟨file, blocks⟩ := scopes
  cases blocks with
  | nil => exact absurd rfl inside
  | cons block outer =>
      refine ⟨rule.file, ?_⟩
      intro frame member
      rcases List.mem_cons.mp member with rfl | further
      · have inner := rule.blocks block List.mem_cons_self
        refine ⟨?_, inner.tags⟩
        intro other found member
        rcases List.mem_cons.mp member with equal | earlier
        · cases equal
          exact fine
        · exact inner.vars other found earlier
      · exact rule.blocks frame (List.mem_cons_of_mem block further)

theorem ScopesRule.declareTag
    {scopes : Scopes}
    (rule : ScopesRule program locals scopes)
    (name : String)
    {ty : TyId}
    (has : program.types.Has ty) :
    ScopesRule program locals (scopes.declareTag name ty) := by
  obtain ⟨file, blocks⟩ := scopes
  cases blocks with
  | nil =>
      refine ⟨⟨rule.file.vars, ?_⟩, fun frame member => by cases member⟩
      intro other found member
      rcases List.mem_cons.mp member with equal | earlier
      · cases equal
        exact has
      · exact rule.file.tags other found earlier
  | cons block outer =>
      refine ⟨rule.file, ?_⟩
      intro frame member
      rcases List.mem_cons.mp member with rfl | further
      · have inner := rule.blocks block List.mem_cons_self
        refine ⟨inner.vars, ?_⟩
        intro other found member
        rcases List.mem_cons.mp member with equal | earlier
        · cases equal
          exact has
        · exact inner.tags other found earlier
      · exact rule.blocks frame (List.mem_cons_of_mem block further)

theorem ScopesRule.enter {scopes : Scopes} (rule : ScopesRule program locals scopes) :
    ScopesRule program locals scopes.enter where
  file := rule.file
  blocks := by
    intro frame member
    rcases List.mem_cons.mp member with rfl | further
    · exact ⟨fun _ _ member => (by cases member), fun _ _ member => (by cases member)⟩
    · exact rule.blocks frame further

theorem ScopesRule.leave {scopes : Scopes} (rule : ScopesRule program locals scopes) :
    ScopesRule program locals scopes.leave where
  file := rule.file
  blocks := fun frame member => rule.blocks frame (List.mem_of_mem_tail member)

/-- What a name is found to be bound to keeps the rule. -/
theorem ScopesRule.lookupVariable?
    {scopes : Scopes}
    (rule : ScopesRule program locals scopes)
    {name : String}
    {binding : Binding}
    (found : scopes.lookupVariable? name = some binding) :
    BindingRule program locals name binding := by
  obtain ⟨frame, member, there⟩ := List.exists_of_findSome?_eq_some found
  have entry : (name, binding) ∈ frame.vars := by
    obtain ⟨before, after, split, _⟩ := List.lookup_eq_some_iff.mp there
    simp [split]
  rcases List.mem_append.mp member with inBlock | inFile
  · exact (rule.blocks frame inBlock).vars name binding entry
  · obtain rfl := List.mem_singleton.mp inFile
    exact (rule.file.vars name binding entry).grow (.refl program) (List.nil_subset _)

theorem ScopesRule.lookupTag?
    {scopes : Scopes}
    (rule : ScopesRule program locals scopes)
    {name : String}
    {ty : TyId}
    (found : scopes.lookupTag? name = some ty) :
    program.types.Has ty := by
  obtain ⟨frame, member, there⟩ := List.exists_of_findSome?_eq_some found
  have entry : (name, ty) ∈ frame.tags := by
    obtain ⟨before, after, split, _⟩ := List.lookup_eq_some_iff.mp there
    simp [split]
  rcases List.mem_append.mp member with inBlock | inFile
  · exact (rule.blocks frame inBlock).tags name ty entry
  · obtain rfl := List.mem_singleton.mp inFile
    exact rule.file.tags name ty entry

theorem ScopesRule.typedef?
    {scopes : Scopes}
    (rule : ScopesRule program locals scopes)
    {name : String}
    {ty : TyId}
    (found : scopes.typedef? name = some ty) :
    program.types.Has ty := by
  unfold MiniC.Scopes.typedef? at found
  split at found
  · rename_i other there
    obtain rfl : other = ty := by simpa using found
    exact rule.lookupVariable? there
  · cases found

end Scopes

/-! ## States -/

namespace State

/-- The locals of the function being parsed. -/
def locals (state : State) : List SymbolId :=
  match state.function with
  | some context => context.locals
  | none => []

end State

/-- The labels and jumps noted for a function. -/
def FunctionContext.signs (context : FunctionContext) : List Sign :=
  context.labels.map .label ++ context.gotos.map fun jump => .goto jump.1

/-- The labels and jumps noted for the function being parsed. -/
def State.signs (state : State) : List Sign :=
  match state.function with
  | some context => context.signs
  | none => []

/-- What a symbol keeps: its type is there, a local has a size, and a function has a name
of the source text and may be called. -/
structure SymbolRule (program : Program) (symbol : Symbol) : Prop where
  typed : program.types.Has symbol.ty
  sized : symbol.isLocal = true -> ∃ ty,
    program.types.get? symbol.ty = some ty ∧ 0 ≤ ty.size
  callable : ∀ function, symbol.kind = .function function ->
    Undotted symbol.name ∧ program.Callable symbol.ty

theorem SymbolRule.grow
    {old new : Program}
    {symbol : Symbol}
    (rule : SymbolRule old symbol)
    (grows : old.Grows new) :
    SymbolRule new symbol where
  typed := grows.has rule.typed
  sized := by
    intro isLocal
    obtain ⟨ty, found, sized⟩ := rule.sized isLocal
    obtain ⟨refined, reached, refines⟩ := grows.types symbol.ty ty found
    rw [refines.eq_of_sized sized] at reached
    exact ⟨ty, reached, sized⟩
  callable := by
    intro function kind
    obtain ⟨undotted, callable⟩ := rule.callable function kind
    exact ⟨undotted, grows.callable callable⟩

/-- The invariant of the parser. -/
structure Inv (tokens : TokenStream) (base : Nat) (state : State) : Prop where
  same : state.tokens = tokens
  cursor : state.pos ≤ tokens.last
  base_le : base ≤ state.program.nodes.size
  types : state.program.types.Sound
  nodes : ∀ id node, state.program.node? id = some node ->
    state.program.NodeRule tokens id node
  symbols : ∀ id symbol, state.program.symbol? id = some symbol ->
    SymbolRule state.program symbol
  globals : ∀ id ∈ state.program.globals, state.program.HasSymbol id
  listing : state.program.Listing state.literals
  scopes : ScopesRule state.program state.locals state.scopes
  locals_nodup : state.locals.Nodup
  locals : ∀ id ∈ state.locals, ∃ symbol, state.program.symbol? id = some symbol ∧
    symbol.kind = .localVar none
  result : ∀ context, state.function = some context ->
    state.program.types.Has context.result
  home : ∀ context, state.function = some context -> ∀ id node, base ≤ id.index ->
    state.program.node? id = some node ->
    state.program.HomeRule base context.locals context.result node.kind
  labels_nodup : ∀ context, state.function = some context -> context.labels.Nodup
  finished : ∀ id symbol function body, state.program.symbol? id = some symbol ->
    symbol.kind = .function function -> function.body = some body ->
    state.program.DefinitionRule base symbol function body
  labelled : ∀ id symbol function body, state.program.symbol? id = some symbol ->
    symbol.kind = .function function -> function.body = some body ->
    state.program.LabelRule tokens body

namespace Inv

variable {tokens : TokenStream} {base : Nat} {state : State}

/-- Children come before their parents. -/
theorem earlier (inv : Inv tokens base state) (id : NodeId) (node : Node)
    (found : state.program.node? id = some node) :
    ∀ child ∈ node.kind.children, child.index < id.index :=
  (inv.nodes id node found).earlier

/-- The cursor may be moved to any token. -/
theorem move (inv : Inv tokens base state) {pos : Nat} (bounded : pos ≤ tokens.last) :
    Inv tokens base { state with pos := pos } :=
  { inv with cursor := bounded }

/-- Scopes that keep their rule may be exchanged. -/
theorem rescope
    (inv : Inv tokens base state)
    {scopes : Scopes}
    (rule : ScopesRule state.program state.locals scopes) :
    Inv tokens base { state with scopes := scopes } :=
  { inv with scopes := rule }

/-- The labels and jumps of the function being parsed may change. -/
theorem note
    (inv : Inv tokens base state)
    {context : FunctionContext}
    (inside : state.function = some context)
    {labels : List String}
    (nodup : labels.Nodup)
    (gotos : List (String × Nat)) :
    Inv tokens base
      { state with function := some { context with
        labels := labels, gotos := gotos } } := by
  have unchanged : ({ state with
      function :=
        some { context with labels := labels, gotos := gotos } } : State).locals =
      state.locals := by
    simp [State.locals, inside]
  exact
    { same := inv.same
      cursor := inv.cursor
      base_le := inv.base_le
      types := inv.types
      nodes := inv.nodes
      symbols := inv.symbols
      globals := inv.globals
      listing := inv.listing
      scopes := by rw [unchanged]; exact inv.scopes
      locals_nodup := by rw [unchanged]; exact inv.locals_nodup
      locals := by rw [unchanged]; exact inv.locals
      result := by
        intro other equal
        cases equal
        exact inv.result context inside
      home := by
        intro other equal
        cases equal
        exact inv.home context inside
      labels_nodup := by
        intro other equal
        cases equal
        exact nodup
      finished := inv.finished
      labelled := inv.labelled }

/-- Entries that keep the rules may be put behind those of the program. -/
theorem extend
    (inv : Inv tokens base state)
    {program : Program}
    {literals : Nat}
    (extended : state.program.Extends program)
    (types : program.types.Sound)
    (nodes : ∀ id node, program.node? id = some node ->
      state.program.node? id = some node ∨
      program.NodeRule tokens id node ∧ ∀ context, state.function = some context ->
        program.HomeRule base context.locals context.result node.kind)
    (symbols : ∀ id symbol, program.symbol? id = some symbol ->
      state.program.symbol? id = some symbol ∨ SymbolRule program symbol ∧
        ∀ function, symbol.kind = .function function -> function.body = none)
    (globals : ∀ id ∈ program.globals, program.HasSymbol id)
    (listing : program.Listing literals)
    (longer : state.program.nodes.size ≤ program.nodes.size) :
    Inv tokens base { state with program := program, literals := literals } where
  same := inv.same
  cursor := inv.cursor
  base_le := Nat.le_trans inv.base_le longer
  types := types
  nodes := by
    intro id node found
    rcases nodes id node found with was | ⟨rule, _⟩
    · exact extended.grows.nodeRule (inv.nodes id node was)
    · exact rule
  symbols := by
    intro id symbol found
    rcases symbols id symbol found with was | ⟨rule, _⟩
    · exact (inv.symbols id symbol was).grow extended.grows
    · exact rule
  globals := globals
  listing := listing
  scopes := inv.scopes.grow extended.grows (fun _ member => member)
  locals_nodup := inv.locals_nodup
  locals := by
    intro id member
    obtain ⟨symbol, found, kind⟩ := inv.locals id member
    exact ⟨symbol, extended.symbols id symbol found, kind⟩
  result := fun context inside => extended.grows.has (inv.result context inside)
  home := by
    intro context inside id node after found
    rcases nodes id node found with was | ⟨_, rule⟩
    · exact extended.grows.homeRule (inv.home context inside id node after was)
        (fun _ member => member)
    · exact rule context inside
  finished := by
    intro id symbol function body found kind defined
    rcases symbols id symbol found with was | ⟨_, fresh⟩
    · exact (extended.keeps base).definitionRule inv.base_le
        (inv.finished id symbol function body was kind defined)
    · rw [fresh function kind] at defined
      cases defined
  labels_nodup := inv.labels_nodup
  labelled := by
    intro id symbol function body found kind defined
    rcases symbols id symbol found with was | ⟨_, fresh⟩
    · exact (extended.keeps base).labelRule inv.base_le inv.earlier
        (inv.finished id symbol function body was kind defined).body_lt
        (inv.labelled id symbol function body was kind defined)
    · rw [fresh function kind] at defined
      cases defined

/-- A type that keeps the rule may be entered. -/
theorem pushTy
    (inv : Inv tokens base state)
    {ty : Ty}
    (rule : state.program.types.EntryRule ty) :
    Inv tokens base
      { state with
        program := { state.program with types := (state.program.types.insert ty).2 }
          } := by
  have extended := Program.extends_pushTy state.program ty
  have cases_get? {id : TyId} {found : Ty}
      (there : (state.program.types.insert ty).2.get? id = some found) :
      state.program.types.get? id = some found ∨ found = ty := by
    change (state.program.types.entries.push ty)[id.index]? = some found at there
    rw [Array.getElem?_push] at there
    split at there
    · exact .inr (by simpa using there.symm)
    · exact .inl there
  have grown {entry : Ty} (rule : state.program.types.EntryRule entry) :
      (state.program.types.insert ty).2.EntryRule entry :=
    { rule with
      refs := fun ref member => extended.grows.has (rule.refs ref member)
      members := rule.members.keep fun id found there _ => extended.types id found there
      params := fun result params kind param member =>
        extended.noArray (rule.params result params kind param member) }
  refine inv.extend extended ⟨?_, ?_⟩ ?_ ?_ ?_ ?_ (Nat.le_refl _)
  · exact fun id primitive found => extended.types id primitive
      (inv.types.primitives id _ found)
  · intro id found there
    rcases cases_get? there with was | rfl
    · exact grown (inv.types.entries id found was)
    · exact grown rule
  · exact fun id node found => .inl found
  · exact fun id symbol found => .inl found
  · exact inv.globals
  · exact inv.listing.keep inv.globals extended.grows rfl
      fun id symbol function found kind => ⟨symbol, function, found, kind⟩

/-- A node that keeps the rules may be entered. -/
theorem pushNode
    (inv : Inv tokens base state)
    {node : Node}
    (rule : state.program.NodeRule tokens ⟨state.program.nodes.size⟩ node)
    (home : ∀ context, state.function = some context ->
      state.program.HomeRule base context.locals context.result node.kind) :
    Inv tokens base
      { state with
        program := { state.program with nodes := state.program.nodes.push node } } := by
  have extended := Program.extends_pushNode state.program node
  have listing := inv.listing.keep inv.globals extended.grows rfl
    fun id symbol function found kind => ⟨symbol, function, found, kind⟩
  refine inv.extend extended inv.types ?_ ?_ inv.globals listing (by simp)
  · intro id other found
    rcases Program.node?_push found with was | ⟨new, rfl⟩
    · exact .inl was
    · obtain rfl : id = ⟨state.program.nodes.size⟩ := by rw [← new]
      refine .inr ⟨extended.grows.nodeRule rule, fun context inside => ?_⟩
      exact extended.grows.homeRule (home context inside) (fun _ member => member)
  · exact fun id symbol found => .inl found

/-- A symbol without a body may be entered and listed. -/
theorem pushGlobal
    (inv : Inv tokens base state)
    {symbol : Symbol}
    {literals : Nat}
    (rule : SymbolRule state.program symbol)
    (naming : Naming state.literals symbol.name literals)
    (bodiless : ∀ function, symbol.kind = .function function -> function.body = none) :
    Inv tokens base
      { state with
        program :=
          { state.program with
            symbols := state.program.symbols.push symbol
            globals := state.program.globals.push ⟨state.program.symbols.size⟩ }
        literals := literals } := by
  have extended := Program.extends_pushSymbol state.program symbol
    (state.program.globals.push ⟨state.program.symbols.size⟩)
  refine inv.extend extended inv.types (fun id node found => .inl found) ?_ ?_
    (inv.listing.push inv.globals naming) (Nat.le_refl _)
  · intro id other found
    rcases Program.symbol?_push found with was | ⟨_, rfl⟩
    · exact .inl was
    · exact .inr ⟨rule.grow extended.grows, bodiless⟩
  · intro id member
    rcases Array.mem_push.mp member with earlier | rfl
    · exact extended.grows.hasSymbol (inv.globals id earlier)
    · exact ⟨symbol, by simp [Program.symbol?]⟩

/-- A local with a size may be entered. -/
theorem pushSymbol
    (inv : Inv tokens base state)
    {symbol : Symbol}
    (rule : SymbolRule state.program symbol)
    (plain : ∀ function, symbol.kind ≠ .function function) :
    Inv tokens base
      { state with
        program := { state.program with symbols := state.program.symbols.push symbol }
          } := by
  have extended := Program.extends_pushSymbol state.program symbol state.program.globals
  refine inv.extend extended inv.types (fun id node found => .inl found) ?_ ?_ ?_
    (Nat.le_refl _)
  · intro id other found
    rcases Program.symbol?_push found with was | ⟨_, rfl⟩
    · exact .inl was
    · exact .inr ⟨rule.grow extended.grows, fun function kind => absurd kind
        (plain function)⟩
  · exact fun id member => extended.grows.hasSymbol (inv.globals id member)
  · refine inv.listing.keep inv.globals extended.grows rfl ?_
    intro id other function found kind
    rcases Program.symbol?_push found with was | ⟨_, rfl⟩
    · exact ⟨other, function, was, kind⟩
    · exact absurd kind (plain function)

/-- A local that is new to the function being parsed may be added to it. -/
theorem addLocal
    (inv : Inv tokens base state)
    {context : FunctionContext}
    (inside : state.function = some context)
    {id : SymbolId}
    (fresh : id ∉ context.locals)
    {symbol : Symbol}
    (found : state.program.symbol? id = some symbol)
    (kind : symbol.kind = .localVar none) :
    Inv tokens base
      { state with function := some { context with
        locals := context.locals ++ [id] } } := by
  have was : state.locals = context.locals := by simp [State.locals, inside]
  have subset : context.locals ⊆ context.locals ++ [id] := List.subset_append_left _ _
  exact
    { same := inv.same
      cursor := inv.cursor
      base_le := inv.base_le
      types := inv.types
      nodes := inv.nodes
      symbols := inv.symbols
      globals := inv.globals
      listing := inv.listing
      scopes := inv.scopes.grow (.refl _) (by rw [was]; exact subset)
      locals_nodup := by
        have nodup := inv.locals_nodup
        rw [was] at nodup
        refine List.nodup_append.mpr ⟨nodup, by simp, ?_⟩
        intro earlier member other single equal
        rw [List.mem_singleton.mp single] at equal
        exact fresh (equal ▸ member)
      locals := by
        intro other member
        rcases List.mem_append.mp member with earlier | single
        · exact inv.locals other (by rw [was]; exact earlier)
        · obtain rfl := List.mem_singleton.mp single
          exact ⟨symbol, found, kind⟩
      result := by
        intro other equal
        cases equal
        exact inv.result context inside
      home := by
        intro other equal id node after there
        cases equal
        exact Program.Grows.homeRule (.refl _)
          (inv.home context inside id node after there) subset
      labels_nodup := by
        intro other equal
        cases equal
        exact inv.labels_nodup context inside
      finished := inv.finished
      labelled := inv.labelled }

/-- Entries may be refined, as long as places and the nodes before `base` stay. -/
theorem refine
    (inv : Inv tokens base state)
    {program : Program}
    (keeps : Program.Keeps base state.program program)
    (types : program.types.Sound)
    (nodes : ∀ id node, program.node? id = some node ->
      ∃ was, state.program.node? id = some was ∧ was.Refines node)
    (symbols : program.symbols = state.program.symbols)
    (globals : program.globals = state.program.globals)
    (size : program.nodes.size = state.program.nodes.size) :
    Inv tokens base { state with program := program } := by
  have symbol?_eq (id : SymbolId) : program.symbol? id = state.program.symbol? id := by
    rw [Program.symbol?, Program.symbol?, symbols]
  exact
    { same := inv.same
      cursor := inv.cursor
      base_le := by rw [size]; exact inv.base_le
      types := types
      nodes := by
        intro id node found
        obtain ⟨was, there, refines⟩ := nodes id node found
        have rule := keeps.nodeRule (inv.nodes id was there)
        rcases refines with rfl | ⟨_, kind, rfl⟩
        · exact rule
        · exact rule.emptied kind
      symbols := by
        intro id symbol found
        rw [symbol?_eq] at found
        exact (inv.symbols id symbol found).grow keeps.toGrows
      globals := by
        intro id member
        rw [globals] at member
        exact keeps.hasSymbol (inv.globals id member)
      listing := by
        refine inv.listing.keep inv.globals keeps.toGrows globals ?_
        intro id symbol function found kind
        rw [symbol?_eq] at found
        exact ⟨symbol, function, found, kind⟩
      scopes := inv.scopes.grow keeps.toGrows (fun _ member => member)
      locals_nodup := inv.locals_nodup
      locals := by
        intro id member
        rw [symbol?_eq]
        exact inv.locals id member
      result := fun context inside => keeps.has (inv.result context inside)
      home := by
        intro context inside id node after found
        obtain ⟨was, there, refines⟩ := nodes id node found
        have rule := keeps.homeRule (inv.home context inside id was after there)
          (fun _ member => member)
        rcases refines with rfl | ⟨_, _, rfl⟩
        · exact rule
        · exact ⟨by simp [NodeKind.children], by simp, by simp⟩
      labels_nodup := inv.labels_nodup
      finished := by
        intro id symbol function body found kind defined
        rw [symbol?_eq] at found
        exact keeps.definitionRule inv.base_le
          (inv.finished id symbol function body found kind defined)
      labelled := by
        intro id symbol function body found kind defined
        rw [symbol?_eq] at found
        exact keeps.labelRule inv.base_le inv.earlier
          (inv.finished id symbol function body found kind defined).body_lt
          (inv.labelled id symbol function body found kind defined) }

/-- A block of the function being parsed may lose its statements. -/
theorem emptyBlock
    (inv : Inv tokens base state)
    {block : NodeId}
    {node : Node}
    {body : List NodeId}
    (found : state.program.node? block = some node)
    (kind : node.kind = .block body)
    (inside : base ≤ block.index) :
    Inv tokens base
      { state with
        program :=
          { state.program with
            nodes := state.program.nodes.modify block.index fun node =>
              { node with kind := .block [] } } } := by
  have look (id : NodeId) :
      ({ state.program with
        nodes := state.program.nodes.modify block.index fun node =>
          { node with kind := .block [] } } : Program).node? id =
        if block.index = id.index then
          (state.program.node? id).map fun node => { node with kind := .block [] }
        else state.program.node? id :=
    Array.getElem?_modify
  have emptied : node.Refines { node with kind := .block [] } := .inr ⟨body, kind, rfl⟩
  refine inv.refine ⟨⟨?_, ?_, ?_⟩, ?_, ?_⟩ inv.types ?_ rfl rfl (by simp)
  · exact fun id ty there => ⟨ty, there, .refl ty⟩
  · intro id other there
    rw [look]
    by_cases same : block.index = id.index
    · obtain rfl : block = id := by cases block; cases id; simp_all
      obtain rfl : node = other := by simpa [found] using there
      exact ⟨{ node with kind := .block [] }, by simp [there], emptied⟩
    · exact ⟨other, by simp [same, there], .refl other⟩
  · exact fun id symbol there => ⟨symbol, there, .refl symbol⟩
  · exact fun _ _ _ there _ => there
  · intro id other below there
    rw [look, if_neg (by omega)]
    exact there
  · intro id other there
    rw [look] at there
    split at there
    · rename_i same
      obtain rfl : block = id := by cases block; cases id; simp_all
      rw [found] at there
      obtain rfl : { node with kind := .block [] } = other := by simpa using there
      exact ⟨node, found, emptied⟩
    · exact ⟨other, there, .refl other⟩

/-- A struct or union without members may get those of its fields. -/
theorem complete
    (inv : Inv tokens base state)
    {id : TyId}
    {ty : Ty}
    {form : Form}
    (found : state.program.types.get? id = some ty)
    (kind : ty.kind = .aggregate form [])
    (unsized : ty.size < 0)
    {fields : List Field}
    (ruled : ∀ field ∈ fields, state.program.types.FieldRule field)
    {layout : Layout}
    (rule : state.program.types.LayoutRule form 0 fields layout) :
    Inv tokens base
      { state with
        program :=
          { state.program with
            types := ⟨state.program.types.entries.setIfInBounds id.index
              ⟨.aggregate form layout.members, layout.size, layout.align, ty.declToken⟩⟩ }
                } := by
  have bound : id.index < state.program.types.entries.size := TypeTable.Has.of_get? found
  have look (other : TyId) :
      (⟨state.program.types.entries.setIfInBounds id.index
        ⟨.aggregate form layout.members, layout.size, layout.align, ty.declToken⟩⟩ :
          TypeTable).get? other =
        if id.index = other.index then
          some ⟨.aggregate form layout.members, layout.size, layout.align, ty.declToken⟩
        else state.program.types.get? other := by
    unfold TypeTable.get?
    by_cases same : id.index = other.index
    · rw [if_pos same, ← same]
      exact Array.getElem?_setIfInBounds_self_of_lt bound
    · rw [if_neg same]
      exact Array.getElem?_setIfInBounds_ne same
  have has {other : TyId} (was : state.program.types.Has other) :
      (⟨state.program.types.entries.setIfInBounds id.index
        ⟨.aggregate form layout.members, layout.size, layout.align, ty.declToken⟩⟩ :
          TypeTable).Has other := by
    unfold TypeTable.Has at was ⊢
    simpa using was
  have noArray {other : TyId} (was : state.program.types.NoArray other) :
      (⟨state.program.types.entries.setIfInBounds id.index
        ⟨.aggregate form layout.members, layout.size, layout.align, ty.declToken⟩⟩ :
          TypeTable).NoArray other := by
    unfold TypeTable.NoArray
    rw [look]
    split
    · exact ⟨_, rfl, rfl⟩
    · exact was
  have sizedStays (other : TyId) (entry : Ty)
      (there : state.program.types.get? other = some entry) (sized : 0 ≤ entry.size) :
      (⟨state.program.types.entries.setIfInBounds id.index
        ⟨.aggregate form layout.members, layout.size, layout.align, ty.declToken⟩⟩ :
          TypeTable).get? other = some entry := by
    rw [look, if_neg]
    · exact there
    · intro same
      obtain rfl : id = other := by cases id; cases other; simp_all
      obtain rfl : ty = entry := by simpa [found] using there
      omega
  refine inv.refine ⟨⟨?_, ?_, ?_⟩, ?_, ?_⟩ ⟨?_, ?_⟩ ?_ rfl rfl rfl
  · intro other was there
    rw [look]
    split
    · rename_i same
      obtain rfl : id = other := by cases id; cases other; simp_all
      obtain rfl : ty = was := by simpa [found] using there
      exact ⟨_, rfl, .inr ⟨form, layout.members, kind, unsized, rfl⟩⟩
    · exact ⟨was, there, .refl was⟩
  · exact fun _ node there => ⟨node, there, .refl node⟩
  · exact fun _ symbol there => ⟨symbol, there, .refl symbol⟩
  · exact fun _ _ _ there _ => there
  · exact fun _ node _ there => there
  · intro other primitive there
    have was := inv.types.primitives other primitive there
    rw [look, if_neg]
    · exact was
    · intro same
      obtain rfl : id = other := by cases id; cases other; simp_all
      obtain rfl : ty = primitive := by simpa [found] using was
      -- No primitive type is a struct or union.
      have scalar : ∀ index < 6,
          (TypeTable.initial.get? ⟨index⟩).any (·.isAggregate) = false := by decide
      have small : id.index < 6 := TypeTable.Has.of_get? there
      have aggregate := scalar id.index small
      simp [there, Ty.isAggregate, kind] at aggregate
  · intro other entry there
    rw [look] at there
    split at there
    · cases there
      refine ⟨?_, rule.align, rule.align_le, rule.small, ?_, ?_, by simp [Ty.isInteger],
        by simp [Ty.isAggregate], by simp⟩
      · intro ref member
        change ref ∈ layout.members.map (·.ty) at member
        rw [rule.members] at member
        obtain ⟨field, inside, rfl⟩ := List.mem_map.mp member
        obtain ⟨fieldTy, fieldFound, _⟩ := ruled field inside
        exact has (.of_get? fieldFound)
      · refine TypeTable.MembersRule.keep ⟨rule.nonneg, rule.inside, ?_⟩ sizedStays
        rintro members ⟨⟩
        exact rule.ordered rfl
      · intro negative
        have nonneg := rule.size
        change layout.size < 0 at negative
        omega
    · have was := inv.types.entries other entry there
      exact { was with
        refs := fun ref member => has (was.refs ref member)
        members := was.members.keep sizedStays
        params := fun result params kind param member =>
          noArray (was.params result params kind param member) }
  · exact fun _ node there => ⟨node, there, .refl node⟩

end Inv

end Grammar
end MiniC
