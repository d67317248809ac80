import MiniC.Proofs.Declarator.Specifiers
import MiniC.Proofs.Grammar.Scoping
import MiniC.Proofs.Scope.History

/-!
# References to tags

A keyword and a tag without a body refer to a declaration of the tag.  The scopes are
looked at through the steps that made them: parsing adds declarations and whole blocks to
these steps, and a reference denotes the type of the latest declaration that is in force
behind them.

The keyword `enum` refers to enums alone.  The keywords `struct` and `union` refer to
structs and unions alike: which of them the tag was declared with is not looked at.
-/

namespace MiniC

/-! ## Steps that parsing takes -/

/-- Steps that declare names and open blocks that they close again. -/
inductive ScopeStep.WellNested : List ScopeStep -> Prop
  | nil : WellNested []
  | declareVariable {rest : List ScopeStep} (name : String) (binding : Binding)
      (others : WellNested rest) : WellNested (.declareVariable name binding :: rest)
  | declareTag {rest : List ScopeStep} (name : String) (ty : TyId)
      (others : WellNested rest) : WellNested (.declareTag name ty :: rest)
  | block {inner rest : List ScopeStep} (inside : WellNested inner)
      (others : WellNested rest) : WellNested (.enter :: (inner ++ .leave :: rest))

theorem ScopeStep.WellNested.append {first second : List ScopeStep}
    (one : WellNested first) (other : WellNested second) :
    WellNested (first ++ second) := by
  induction one with
  | nil => exact other
  | declareVariable name binding _ hypothesis =>
      exact .declareVariable name binding hypothesis
  | declareTag name ty _ hypothesis => exact .declareTag name ty hypothesis
  | block inside _ _ hypothesis =>
      rw [List.cons_append, List.append_assoc, List.cons_append]
      exact .block inside hypothesis

/-- Scopes that well nested steps make of others. -/
def Scopes.Develops (old new : Scopes) : Prop :=
  ∃ steps, ScopeStep.WellNested steps ∧ new = steps.foldl Scopes.step old

/-- Scopes that develop have a history that goes on. -/
theorem Scopes.Develops.history {history : List ScopeStep} {new : Scopes}
    (develops : (Scopes.after history).Develops new) :
    ∃ more, ScopeStep.WellNested more ∧ new = .after (history ++ more) := by
  obtain ⟨more, nested, rfl⟩ := develops
  exact ⟨more, nested, by rw [Scopes.after, Scopes.after, List.foldl_append]⟩

namespace Grammar

open Declarators (TagKeyword taggedTy namedTy_reference)

instance : Lexical Scopes.Develops where
  refl _ := ⟨[], .nil, rfl⟩
  trans := by
    rintro old _ _ ⟨first, nested, rfl⟩ ⟨second, alsoNested, rfl⟩
    exact ⟨first ++ second, nested.append alsoNested, List.foldl_append.symm⟩
  declareVariable _ name binding := ⟨[_], .declareVariable name binding .nil, rfl⟩
  declareTag _ name ty := ⟨[_], .declareTag name ty .nil, rfl⟩
  leave := by
    rintro scopes _ ⟨steps, nested, rfl⟩
    refine ⟨_, .block nested .nil, ?_⟩
    simp [Scopes.step]

/-- Whatever was done to the scopes before, a parser goes on with well nested steps,
whether it gives a result or fails. -/
def Continues {α : Type} (parser : Parser α) : Prop :=
  ∀ state history, state.scopes = .after history ->
    ∃ more, ScopeStep.WellNested more ∧ (ending parser state).scopes = .after
      (history ++ more)

theorem Rescopes.continues {α : Type} {parser : Parser α}
    (rescopes : Rescopes Scopes.Develops parser) : Continues parser :=
  fun state _ made => Scopes.Develops.history (made ▸ rescopes state)

/-! ## One reference -/

variable {state : State} {again : Productions} {history : List ScopeStep}
    {keyword : TagKeyword}

/-- A tag stands for the type of its latest declaration in force. -/
theorem lookupTag?_iff_latest (made : state.scopes = .after history)
    (tag : String) (ty : TyId) :
    state.scopes.lookupTag? tag = some ty ↔ Latest (ScopeStep.tags tag) history ty := by
  rw [made]
  exact (NameReading.tag tag).findSome?_iff_latest history ty

/-- A tag stands for nothing if no declaration of it is in force. -/
theorem lookupTag?_eq_none_iff (made : state.scopes = .after history) (tag : String) :
    state.scopes.lookupTag? tag = none ↔
      ∀ before ty, ¬ InForce (ScopeStep.tags tag) history before ty := by
  rw [made]
  exact (NameReading.tag tag).findSome?_eq_none_iff history

/-- A tag behind its keyword: it has to stand for a type, and the keyword to refer to
that. -/
theorem taggedTy_run (keyword : TagKeyword) (tag : String) (tok : Nat) (state : State) :
    taggedTy keyword tag tok state =
      match state.scopes.lookupTag? tag with
      | none => .error (.rejected (.naming keyword.unknown) (state.token tok).loc) state
      | some ty =>
        match state.program.types.get? ty with
        | none => .error (.fault (.missing .types ty.index)) state
        | some entry =>
          if keyword.refersTo entry then .ok ty state
          else .error (.rejected (.naming keyword.unknown) (state.token tok).loc)
            state := by
  unfold taggedTy
  rw [get_run]
  cases state.scopes.lookupTag? tag with
  | none => rfl
  | some ty =>
      dsimp only
      cases found : state.program.types.get? ty with
      | none =>
          have missing :
              lookupTy ty state = .error (.fault (.missing .types ty.index)) state := by
            change ofExcept (state.program.lookupTy ty) state = _
            rw [Program.lookupTy, found]
            rfl
          exact bind_fail missing
      | some entry =>
          rw [bind_run (lookupTy_run found)]
          dsimp only
          split <;> rfl

/-- A reference to a tag is accepted exactly if the latest declaration of the tag in force
gives it a type that the keyword refers to, a struct or union for `struct` and `union` and
an enum for `enum`, and then denotes that type.  It is rejected for its name if no
declaration is in force or the latest gives another type.  What is in force follows from
the steps taken so far, and whatever is parsed takes well nested steps. -/
theorem tag_references_denote_latest_declaration
    (again : Productions)
    (typedef : Option TyId)
    {state : State}
    {history : List ScopeStep}
    {keyword : TagKeyword}
    (made : state.scopes = .after history)
    (here : state.sees keyword.text = true)
    (named : state.next.current.isIdentifier = true)
    (noBody : state.next.next.sees openBrace = false) :
    (∀ ty after, namedTy again typedef state = .ok ty after ↔
      after = state.next.next ∧
        Latest (ScopeStep.tags state.next.current.text) history ty ∧
        ∃ entry, state.program.types.get? ty = some entry ∧
          keyword.refersTo entry = true) ∧
    ((∀ before ty, ¬ InForce (ScopeStep.tags state.next.current.text)
      history before ty) -> namedTy again typedef state =
        .error (.rejected (.naming keyword.unknown) state.next.current.loc)
          state.next.next) ∧
    (∀ ty entry, Latest (ScopeStep.tags state.next.current.text) history ty ->
      state.program.types.get? ty = some entry -> keyword.refersTo entry = false ->
      namedTy again typedef state =
        .error (.rejected (.naming keyword.unknown) state.next.current.loc)
          state.next.next) ∧
    ∀ depth,
      (∀ allowed, Continues ((productions depth).specifiers allowed)) ∧
      (∀ ty, Continues ((productions depth).declarator ty)) ∧
      Continues (productions depth).expr ∧ Continues (productions depth).stmt ∧
      Continues (productions depth).block ∧ Continues (unit (productions depth)) := by
  have run : namedTy again typedef state = _ :=
    (namedTy_reference here named noBody).trans
    (taggedTy_run keyword state.next.current.text state.next.pos state.next.next)
  have latest (ty : TyId) :
      state.next.next.scopes.lookupTag? state.next.current.text = some ty ↔ _ :=
    lookupTag?_iff_latest made state.next.current.text ty
  refine ⟨fun ty after => ⟨fun accepted => ?_, ?_⟩, fun unbound => ?_,
    fun ty entry bound found other => ?_, fun depth => ?_⟩
  · rw [run] at accepted
    split at accepted
    · cases accepted
    · rename_i bound
      split at accepted
      · cases accepted
      · split at accepted
        · cases accepted
          exact ⟨rfl, (latest ty).mp bound, _, ‹_›, ‹_›⟩
        · cases accepted
  · rintro ⟨rfl, bound, entry, found, refers⟩
    rw [run, (latest ty).mpr bound]
    dsimp only
    rw [show state.next.next.program.types.get? ty = some entry from found]
    dsimp only
    rw [refers, if_pos rfl]
  · rw [run, show state.next.next.scopes.lookupTag? _ = none from
      (lookupTag?_eq_none_iff made _).mpr unbound]
    rfl
  · rw [run, (latest ty).mpr bound]
    dsimp only
    rw [show state.next.next.program.types.get? ty = some entry from found]
    dsimp only
    rw [other, if_neg Bool.false_ne_true]
    rfl
  · have within : (productions depth).Scoped Scopes.Develops := productions_scoped depth
    exact ⟨fun allowed => (within.specifiers allowed).continues,
      fun ty => (within.declarator ty).continues, within.expr.continues,
        within.stmt.continues,
      within.block.continues, (Rescopes.unit within).continues⟩

/-- The tokens of `enum e`, places left out. -/
def enumTokens : TokenStream :=
  ⟨#[⟨.keyword, "enum", 0, 1⟩, ⟨.identifier, "e", 0, 1⟩], ⟨.eof, "", 0, 1⟩⟩

/-- A struct and an enum behind the primitive types. -/
def enumTypes : TypeTable := ((TypeTable.initial.incomplete .struct 0).2.enumeration).2

/-- A tag that is declared for the enum, and for the struct in a block that is closed. -/
def enumHistory : List ScopeStep :=
  [.declareTag "e" ⟨7⟩, .enter, .declareTag "e" ⟨6⟩, .leave]

/-- The state before the tokens behind these steps. -/
def enumState : State :=
  { State.initial enumTokens with
    scopes := .after enumHistory, program := { Program.empty with types := enumTypes } }

/-- The declaration in the block is over. -/
theorem enum_reference_denotes_outer_declaration :
    Latest (ScopeStep.tags "e") enumHistory ⟨7⟩ ∧
      namedTy .exhausted none enumState = .ok ⟨7⟩ enumState.next.next := by
  have latest : Latest (ScopeStep.tags "e") enumHistory ⟨7⟩ :=
    (@lookupTag?_iff_latest enumState _ rfl "e" ⟨7⟩).mp (by decide)
  have denotes := (@tag_references_denote_latest_declaration
    .exhausted none enumState enumHistory
    .enum rfl (by decide) (by decide) (by decide)).1 ⟨7⟩
  exact ⟨latest, (denotes _).mpr ⟨rfl, latest, _, rfl, rfl⟩⟩

/-- The tokens of `union u { int a; } x; struct u y;`, places left out. -/
def mixedTokens : TokenStream :=
  ⟨#[⟨.keyword, "union", 0, 1⟩, ⟨.identifier, "u", 0, 1⟩, ⟨.punctuator, openBrace, 0, 1⟩,
      ⟨.keyword, "int", 0, 1⟩, ⟨.identifier, "a", 0, 1⟩, ⟨.punctuator, ";", 0, 1⟩,
      ⟨.punctuator, closeBrace, 0, 1⟩, ⟨.identifier, "x", 0, 1⟩, ⟨.punctuator, ";", 0, 1⟩,
      ⟨.keyword, "struct", 0, 1⟩, ⟨.identifier, "u", 0, 1⟩, ⟨.identifier, "y", 0, 1⟩,
      ⟨.punctuator, ";", 0, 1⟩],
    ⟨.eof, "", 0, 1⟩⟩

/-- What a program says of the second of its symbols: the name and the kind of the
type. -/
def secondSymbol (program : Program) : Option (String × Option TyKind) :=
  (program.symbol? ⟨1⟩).map fun symbol =>
    (symbol.name, (program.types.get? symbol.ty).map Ty.kind)

/-- The keyword `struct` is accepted before the tag of a union and denotes the union. -/
theorem struct_reference_denotes_union :
    ∃ program, parse mixedTokens = .ok program ∧
      secondSymbol program =
        some ("y", some (.aggregate .union [⟨"a", .int, 0, 4⟩])) := by
  have known : (parse mixedTokens).toOption.map secondSymbol =
      some (some ("y", some (.aggregate .union [⟨"a", .int, 0, 4⟩]))) := by
    decide +kernel
  cases parsed : parse mixedTokens with
  | error error =>
      rw [parsed] at known
      cases known
  | ok program =>
      rw [parsed] at known
      exact ⟨program, rfl, Option.some.inj known⟩

end Grammar
end MiniC
