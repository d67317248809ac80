import MiniC.Proofs.Grammar.Runs

/-!
# What productions add

A production only adds to the tables of a program: types, nodes and symbols that were
there stay as they were.  To the list of the file-scope symbols it adds, in this order,
the arrays of the string literals that it reads, each once, and under the names of the
source text whatever else it declares.  `Added` says so of the states before and behind a
production.
-/

namespace MiniC

/-- The first table is the head of the second. -/
def Heads {α : Type} (before after : Array α) : Prop :=
  ∀ (index : Nat) (entry : α), before[index]? = some entry -> after[index]? = some entry

namespace Heads

variable {α : Type} {before middle after : Array α}

theorem refl (table : Array α) : Heads table table := fun _ _ found => found

theorem trans (first : Heads before middle) (second : Heads middle after) :
    Heads before after :=
  fun index entry found => second index entry (first index entry found)

theorem push (table : Array α) (entry : α) : Heads table (table.push entry) := by
  intro index found there
  have bound := (Array.getElem?_eq_some_iff.mp there).1
  rw [Array.getElem?_push_lt bound, ← Array.getElem?_eq_getElem bound]
  exact there

theorem size_le (heads : Heads before after) : before.size ≤ after.size := by
  by_contra shorter
  have bound : after.size < before.size := Nat.lt_of_not_le shorter
  have there := heads after.size before[after.size] (Array.getElem?_eq_getElem bound)
  exact absurd (Array.getElem?_eq_some_iff.mp there).1 (Nat.lt_irrefl _)

/-- A change behind the head does not touch it. -/
theorem of_eq_below
    {changed : Array α}
    (heads : Heads before after)
    (same : ∀ index, index < before.size -> changed[index]? = after[index]?) :
    Heads before changed := by
  intro index entry found
  rw [same index (Array.getElem?_eq_some_iff.mp found).1]
  exact heads index entry found

end Heads

/-! ## String literals of the source text -/

/-- The bytes of a string literal. -/
def TokenKind.string? : TokenKind -> Option (List UInt8)
  | .str data => some data
  | _ => none

namespace TokenStream

variable {tokens : TokenStream} {start middle stop : Nat}

/-- The tokens from one index up to another. -/
def between (tokens : TokenStream) (start stop : Nat) : List Token :=
  (List.range' start (stop - start)).map tokens.get

/-- The string literals from one index up to another. -/
def strings (tokens : TokenStream) (start stop : Nat) : List (List UInt8) :=
  (tokens.between start stop).filterMap (·.kind.string?)

theorem between_self (tokens : TokenStream) (index : Nat) :
    tokens.between index index = [] := by
  unfold between
  rw [Nat.sub_self, List.range'_zero, List.map_nil]

theorem between_succ (tokens : TokenStream) (index : Nat) :
    tokens.between index (index + 1) = [tokens.get index] := by
  unfold between
  rw [Nat.add_sub_cancel_left, List.range'_one, List.map_singleton]

theorem between_append (first : start ≤ middle) (second : middle ≤ stop) :
    tokens.between start middle ++ tokens.between middle stop =
      tokens.between start stop := by
  unfold between
  have reached : start + 1 * (middle - start) = middle := by omega
  have whole : stop - start = (middle - start) + (stop - middle) := by omega
  rw [← List.map_append, whole, ← List.range'_append, reached]

theorem strings_append (first : start ≤ middle) (second : middle ≤ stop) :
    tokens.strings start middle ++ tokens.strings middle stop =
      tokens.strings start stop := by
  unfold strings
  rw [← List.filterMap_append, between_append first second]

@[simp] theorem strings_self (tokens : TokenStream) (index : Nat) :
    tokens.strings index index = [] := by
  unfold strings
  rw [between_self, List.filterMap_nil]

theorem strings_succ (tokens : TokenStream) (index : Nat) :
    tokens.strings index (index + 1) = (tokens.get index).kind.string?.toList := by
  unfold strings
  rw [between_succ, List.filterMap_cons]
  cases (tokens.get index).kind.string? with
  | none => rfl
  | some data => rfl

end TokenStream

/-! ## Programs -/

namespace Program

/-- What a program holds is at the head of the tables of another. -/
structure Begins (before after : Program) : Prop where
  types : Heads before.types.entries after.types.entries
  nodes : Heads before.nodes after.nodes
  symbols : Heads before.symbols after.symbols

namespace Begins

variable {before middle after : Program}

theorem refl (program : Program) : program.Begins program := ⟨.refl _, .refl _, .refl _⟩

theorem trans (first : before.Begins middle) (second : middle.Begins after) :
    before.Begins after :=
  ⟨first.types.trans second.types, first.nodes.trans second.nodes,
    first.symbols.trans second.symbols⟩

end Begins

/-- The array of a string literal with its number and its bytes. -/
def HoldsLiteral (program : Program) (id : SymbolId) (number : Nat) (data : List UInt8) :
    Prop :=
  ∃ symbol, program.symbol? id = some symbol ∧ symbol.name = literalName number ∧
    symbol.kind = .globalVar (some data) ∧
    program.types.get? symbol.ty = some ⟨.array .char data.length, data.length, 1, none⟩

/-- Among the symbols are the arrays of the given string literals in order, numbered from
the given number on.  The others have names of the source text. -/
inductive Gathers (program : Program) : Nat -> List SymbolId -> List (List UInt8) -> Prop
  | nil (number : Nat) : Gathers program number [] []
  | literal {number : Nat} {id : SymbolId} {data : List UInt8} {ids : List SymbolId}
      {rest : List (List UInt8)}
      (holds : program.HoldsLiteral id number data)
      (more : Gathers program (number + 1) ids rest) :
      Gathers program number (id :: ids) (data :: rest)
  | named {number : Nat} {id : SymbolId} {symbol : Symbol} {ids : List SymbolId}
      {strings : List (List UInt8)}
      (found : program.symbol? id = some symbol)
      (undotted : Undotted symbol.name)
      (more : Gathers program number ids strings) :
      Gathers program number (id :: ids) strings

/-- Symbols keep their names, variables of the file scope stay as they are, and so do
array types. -/
structure KeepsVariables (before after : Program) : Prop where
  arrays : ∀ id ty, before.types.get? id = some ty -> ty.isArray = true ->
    after.types.get? id = some ty
  symbols : ∀ id symbol, before.symbol? id = some symbol ->
    ∃ now, after.symbol? id = some now ∧ now.name = symbol.name ∧
      ∀ init, symbol.kind = .globalVar init -> now = symbol

theorem Begins.keepsVariables {before after : Program} (begins : before.Begins after) :
    before.KeepsVariables after where
  arrays := fun id ty found _ => begins.types id.index ty found
  symbols := fun _ symbol found => ⟨symbol, begins.symbols _ _ found, rfl, fun _ _ => rfl⟩

namespace Gathers

variable {program after : Program} {number : Nat} {ids more : List SymbolId}
  {strings rest : List (List UInt8)}

theorem append (first : program.Gathers number ids strings)
    (second : program.Gathers (number + strings.length) more rest) :
    program.Gathers number (ids ++ more) (strings ++ rest) := by
  induction first with
  | nil number => exact second
  | literal holds _ hypothesis =>
      apply Gathers.literal holds
      apply hypothesis
      rwa [List.length_cons, Nat.add_comm _ 1, ← Nat.add_assoc] at second
  | named found undotted _ hypothesis => exact .named found undotted (hypothesis second)

/-- What has been gathered stays gathered. -/
theorem keep (gathers : program.Gathers number ids strings)
    (keeps : program.KeepsVariables after) : after.Gathers number ids strings := by
  induction gathers with
  | nil number => exact .nil number
  | literal holds _ hypothesis =>
      obtain ⟨symbol, found, name, kind, typed⟩ := holds
      obtain ⟨now, there, _, same⟩ := keeps.symbols _ symbol found
      obtain rfl : now = symbol := same _ kind
      exact .literal ⟨now, there, name, kind, keeps.arrays _ _ typed rfl⟩ hypothesis
  | named found undotted _ hypothesis =>
      obtain ⟨now, there, name, _⟩ := keeps.symbols _ _ found
      exact .named there (name ▸ undotted) hypothesis

end Gathers
end Program

namespace Grammar

variable {tokens : TokenStream} {before middle after state : State}

/-- Parameters that are named by identifiers, if they are named. -/
def Named (tokens : TokenStream) (params : List Param) : Prop :=
  ∀ param ∈ params, ∀ tok, param.name = some tok -> (tokens.get tok).isIdentifier = true

/-- A table of types with `char` in it whose functions have named parameters. -/
structure Furnished (tokens : TokenStream) (types : TypeTable) : Prop where
  char : types.get? .char = some ⟨.char, 1, 1, none⟩
  named : ∀ id ty result params, types.get? id = some ty ->
    ty.kind = .func result params -> Named tokens params

/-- A state in the middle of the given tokens. -/
structure State.Within (tokens : TokenStream) (state : State) : Prop where
  same : state.tokens = tokens
  cursor : state.pos ≤ tokens.last
  types : Furnished tokens state.program.types

namespace Furnished

variable {types : TypeTable}

/-- A type may be entered, if its parameters are named. -/
theorem insert (entered : Furnished tokens types) {ty : Ty}
    (named : ∀ result params, ty.kind = .func result params -> Named tokens params) :
    Furnished tokens (types.insert ty).2 where
  char := TypeTable.get?_insert_of_some entered.char ty
  named := by
    intro id found result params there kind
    change (types.entries.push ty)[id.index]? = some found at there
    rw [Array.getElem?_push] at there
    split at there
    · obtain rfl := Option.some.inj there
      exact named result params kind
    · exact entered.named id found result params there kind

end Furnished

/-- What a production adds to a state. -/
structure Added (tokens : TokenStream) (before after : State) : Prop where
  within : after.Within tokens
  forward : before.pos ≤ after.pos
  begins : before.program.Begins after.program
  locals : ∀ id ∈ after.locals, id ∈ before.locals ∨
    before.program.symbols.size ≤ id.index ∧
      ∃ symbol, after.program.symbol? id = some symbol ∧ symbol.kind = .localVar none
  gathered : ∃ ids, after.program.globals.toList = before.program.globals.toList ++ ids ∧
    after.program.Gathers before.literals ids (tokens.strings before.pos after.pos) ∧
    after.literals = before.literals + (tokens.strings before.pos after.pos).length

namespace Added

theorem refl (within : state.Within tokens) : Added tokens state state where
  within := within
  forward := Nat.le_refl _
  begins := .refl _
  locals := fun _ member => .inl member
  gathered := ⟨[], by simp, by simpa using .nil _, by simp⟩

theorem trans (first : Added tokens before middle) (second : Added tokens middle after) :
    Added tokens before after where
  within := second.within
  forward := Nat.le_trans first.forward second.forward
  begins := first.begins.trans second.begins
  locals := by
    intro id member
    rcases second.locals id member with earlier | ⟨beyond, symbol, found, kind⟩
    · rcases first.locals id earlier with known | ⟨beyond, symbol, found, kind⟩
      · exact .inl known
      · exact .inr ⟨beyond, symbol, second.begins.symbols _ _ found, kind⟩
    · exact .inr ⟨Nat.le_trans first.begins.symbols.size_le beyond, symbol, found, kind⟩
  gathered := by
    obtain ⟨ids, listed, gathers, count⟩ := first.gathered
    obtain ⟨more, alsoListed, gathersMore, countMore⟩ := second.gathered
    rw [← TokenStream.strings_append first.forward second.forward]
    refine ⟨ids ++ more, ?_, ?_, ?_⟩
    · rw [alsoListed, listed, List.append_assoc]
    · rw [count] at gathersMore
      exact (gathers.keep second.begins.keepsVariables).append gathersMore
    · rw [countMore, count, List.length_append, Nat.add_assoc]

/-- The scopes and the signs of a function may change freely. -/
theorem of_program_eq
    (within : before.Within tokens)
    (sameTokens : after.tokens = before.tokens)
    (program : after.program = before.program)
    (pos : after.pos = before.pos)
    (literals : after.literals = before.literals)
    (locals : after.locals ⊆ before.locals) :
    Added tokens before after where
  within := by
    refine ⟨sameTokens.trans within.same, ?_, ?_⟩
    · rw [pos]
      exact within.cursor
    · rw [program]
      exact within.types
  forward := Nat.le_of_eq pos.symm
  begins := by
    rw [program]
    exact .refl _
  locals := fun _ member => .inl (locals member)
  gathered :=
    ⟨[], by simp [program], by simpa [pos] using .nil _, by simp [pos, literals]⟩

/-- The cursor moves behind a token that is no string literal. -/
theorem next
    (within : state.Within tokens)
    (further : state.pos < tokens.last)
    (plain : (tokens.get state.pos).kind.string? = none) :
    Added tokens state state.next where
  within := ⟨within.same, further, within.types⟩
  forward := Nat.le_succ _
  begins := .refl _
  locals := fun _ member => .inl member
  gathered := by
    have none : tokens.strings state.pos (state.pos + 1) = [] := by
      rw [TokenStream.strings_succ, plain]
      rfl
    refine ⟨[], by simp, ?_, ?_⟩
    · rw [State.next_pos, none]
      exact .nil _
    · rw [State.next_pos, none]
      rfl

/-- Types and nodes are entered behind those that are there. -/
theorem enter
    (within : state.Within tokens)
    {types : TypeTable}
    {nodes : Array Node}
    (entered : Furnished tokens types)
    (typesHead : Heads state.program.types.entries types.entries)
    (nodesHead : Heads state.program.nodes nodes) :
    Added tokens state
      { state with program := { state.program with types := types, nodes := nodes } }
        where
  within := ⟨within.same, within.cursor, entered⟩
  forward := Nat.le_refl _
  begins := ⟨typesHead, nodesHead, .refl _⟩
  locals := fun _ member => .inl member
  gathered := ⟨[], by simp, by simpa using .nil _, by simp⟩

/-- A local variable is entered and noted. -/
theorem pushLocal
    (within : state.Within tokens)
    (name : String)
    (ty : TyId)
    (scopes : Scopes) :
    Added tokens state
      { state with
        program :=
          { state.program with
            symbols := state.program.symbols.push ⟨name, ty, false, .localVar none⟩ }
        function := state.function.map fun function =>
          { function with locals := function.locals ++ [⟨state.program.symbols.size⟩] }
        scopes := scopes } where
  within := ⟨within.same, within.cursor, within.types⟩
  forward := Nat.le_refl _
  begins := ⟨.refl _, .refl _, .push _ _⟩
  locals := by
    intro id member
    unfold State.locals at member ⊢
    cases known : state.function with
    | none => simp [known] at member
    | some function =>
        simp only [known, Option.map_some, List.mem_append, List.mem_singleton] at member
        rcases member with earlier | rfl
        · exact .inl earlier
        · refine .inr ⟨Nat.le_refl _, _, Array.getElem?_push_size, rfl⟩
  gathered := ⟨[], by simp, by simpa using .nil _, by simp⟩

/-- A symbol of the file scope is entered under a name of the source text. -/
theorem pushGlobal
    (within : state.Within tokens)
    {symbol : Symbol}
    (undotted : Undotted symbol.name)
    (scopes : Scopes) :
    Added tokens state
      { state with
        program :=
          { state.program with
            symbols := state.program.symbols.push symbol
            globals := state.program.globals.push ⟨state.program.symbols.size⟩ }
        scopes := scopes } where
  within := ⟨within.same, within.cursor, within.types⟩
  forward := Nat.le_refl _
  begins := ⟨.refl _, .refl _, .push _ _⟩
  locals := fun _ member => .inl member
  gathered := by
    refine ⟨[⟨state.program.symbols.size⟩], by simp, ?_, by simp⟩
    rw [TokenStream.strings_self]
    exact .named Array.getElem?_push_size undotted (.nil _)

/-- The array of the string literal at the cursor is entered, and the cursor moves on. -/
theorem pushLiteral
    (within : state.Within tokens)
    (further : state.pos < tokens.last)
    {data : List UInt8}
    (kind : (tokens.get state.pos).kind = .str data) :
    Added tokens state
      { state.next with
        program :=
          { state.program with
            types :=
              (state.program.types.insert
                ⟨.array .char data.length, data.length, 1, none⟩).2
            symbols := state.program.symbols.push
              ⟨literalName state.literals, ⟨state.program.types.entries.size⟩, true,
                .globalVar (some data)⟩
            globals := state.program.globals.push ⟨state.program.symbols.size⟩ }
        literals := state.literals + 1 } where
  within := ⟨within.same, further, within.types.insert fun _ _ never => by cases never⟩
  forward := Nat.le_succ _
  begins := ⟨.push _ _, .refl _, .push _ _⟩
  locals := fun _ member => .inl member
  gathered := by
    have read : tokens.strings state.pos (state.pos + 1) = [data] := by
      rw [TokenStream.strings_succ, kind]
      rfl
    refine ⟨[⟨state.program.symbols.size⟩], by simp, ?_, ?_⟩
    · rw [State.next_pos, read]
      exact .literal ⟨_, Array.getElem?_push_size, rfl, rfl,
        TypeTable.get?_insert_self _ _⟩ (.nil _)
    · rw [State.next_pos, read]
      rfl

/-- What changes further may leave the variables alone and change nothing that was there
before. -/
theorem settle {last : State}
    (added : Added tokens before after)
    (within : last.Within tokens)
    (stays : last.pos = after.pos)
    (begins : before.program.Begins last.program)
    (locals : ∀ id ∈ last.locals, id ∈ before.locals ∨
      before.program.symbols.size ≤ id.index ∧
        ∃ symbol, last.program.symbol? id = some symbol ∧ symbol.kind = .localVar none)
    (keeps : after.program.KeepsVariables last.program)
    (globals : last.program.globals = after.program.globals)
    (literals : last.literals = after.literals) :
    Added tokens before last where
  within := within
  forward := by
    rw [stays]
    exact added.forward
  begins := begins
  locals := locals
  gathered := by
    obtain ⟨ids, listed, gathers, count⟩ := added.gathered
    rw [stays]
    exact ⟨ids, by rw [globals, listed], gathers.keep keeps, by rw [literals, count]⟩

/-- A type that was entered open is given its members. -/
theorem completed
    {id : TyId}
    {entry old : Ty}
    (added : Added tokens before after)
    (within : before.Within tokens)
    (fresh : before.program.types.entries.size ≤ id.index)
    (found : after.program.types.get? id = some old)
    (unsized : old.isArray = false)
    (noFunction : ∀ result params, entry.kind ≠ .func result params) :
    Added tokens before
      { after with
        program :=
          { after.program with
            types := ⟨after.program.types.entries.setIfInBounds id.index entry⟩ } } := by
  have other (known : TyId) (differ : known ≠ id) :
      TypeTable.get? ⟨after.program.types.entries.setIfInBounds id.index entry⟩ known =
        after.program.types.get? known :=
    Array.getElem?_setIfInBounds_ne fun same => differ (congrArg TyId.mk same.symm)
  have own (ty : Ty)
      (there : TypeTable.get?
        ⟨after.program.types.entries.setIfInBounds id.index entry⟩ id =
        some ty) : ty = entry := by
    have set : (after.program.types.entries.setIfInBounds id.index entry)[id.index]? =
        some ty := there
    rw [Array.getElem?_setIfInBounds_self] at set
    split at set
    · exact (Option.some.inj set).symm
    · cases set
  have primitive : TyId.char ≠ id := by
    rintro rfl
    have bound := (Array.getElem?_eq_some_iff.mp within.types.char).1
    omega
  refine added.settle ⟨added.within.same, added.within.cursor, ?_, ?_⟩ rfl
    ⟨added.begins.types.of_eq_below fun index below => ?_, added.begins.nodes,
      added.begins.symbols⟩
    added.locals ⟨fun known ty there array => ?_, fun known symbol there =>
      ⟨symbol, there, rfl, fun _ _ => rfl⟩⟩ rfl rfl
  · exact (other _ primitive).trans added.within.types.char
  · intro known ty result params there kind
    by_cases same : known = id
    · subst same
      exact absurd kind (own ty there ▸ noFunction result params)
    · exact added.within.types.named known ty result params
        ((other known same) ▸ there) kind
  · exact other ⟨index⟩ fun same => by
      have : index = id.index := congrArg TyId.index same
      omega
  · refine (other known ?_).trans there
    rintro rfl
    obtain rfl := Option.some.inj (found.symm.trans there)
    rw [unsized] at array
    cases array

/-- A node that was entered changes. -/
theorem modified
    {id : NodeId}
    {change : Node -> Node}
    (added : Added tokens before after)
    (fresh : before.program.nodes.size ≤ id.index) :
    Added tokens before
      { after with
        program :=
          { after.program with nodes := after.program.nodes.modify id.index change }
            } := by
  refine added.settle ⟨added.within.same, added.within.cursor, added.within.types⟩ rfl
    ⟨added.begins.types, added.begins.nodes.of_eq_below fun index below => ?_,
      added.begins.symbols⟩
    added.locals ⟨fun known ty there _ => there, fun known symbol there =>
      ⟨symbol, there, rfl, fun _ _ => rfl⟩⟩ rfl rfl
  rw [Array.getElem?_modify, if_neg (by omega)]

/-- A range without string literals may be read once more.  Behind that the cursor returns
to where it was. -/
theorem reread {index : Nat}
    (added : Added tokens { before with pos := index } after)
    (within : before.Within tokens)
    (none : tokens.strings index after.pos = []) :
    Added tokens before { after with pos := before.pos } where
  within := ⟨added.within.same, within.cursor, added.within.types⟩
  forward := Nat.le_refl _
  begins := added.begins
  locals := added.locals
  gathered := by
    obtain ⟨ids, listed, gathers, count⟩ := added.gathered
    rw [none] at gathers count
    refine ⟨ids, listed, ?_, ?_⟩
    · rw [TokenStream.strings_self]
      exact gathers
    · rw [TokenStream.strings_self]
      exact count

/-- The scopes do not matter. -/
theorem rescope
    {inner outer : Scopes}
    (added : Added tokens { before with scopes := inner } after) :
    Added tokens before { after with scopes := outer } where
  within := ⟨added.within.same, added.within.cursor, added.within.types⟩
  forward := added.forward
  begins := added.begins
  locals := added.locals
  gathered := added.gathered

end Added

end Grammar
end MiniC
