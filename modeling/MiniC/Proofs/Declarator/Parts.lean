import MiniC.Proofs.Declarator.Specifiers

/-!
# Reading the parts of a declarator

Stars, array suffixes and parameters are read over productions that read smaller
declarators, suffixes and specifiers.
-/

namespace MiniC
namespace Declarators

open Precedence Grammar

variable {setting : Setting} {state : State} {again : Productions}

/-! ## Stars -/

/-- A pointer to a type that denotes a shape denotes the pointer to it. -/
theorem pointerTo_reads
    {shape : Shape}
    {base : TyId}
    (denotes : shape.Denotes setting.types state.tokens state.program.types base) :
    Settles (pointerTo base) state state.pos True fun types id =>
      (Shape.pointer shape).Denotes setting.types state.tokens types id :=
  have longer : state.program.types.Extends (state.program.types.pointerTo base).2 :=
    .insert _ _
  .inl ⟨trivial, _, _, enterTy_run _, longer,
    ⟨base, TypeTable.get?_insert_self _ _, denotes.mono longer⟩⟩

/-- One round of the loop over stars. -/
def starRound (ty : TyId) : Parser (Round TyId TyId) := do
  if ← accept "*" then
    return .again (← pointerTo ty)
  else
    return .done ty

@[simp] theorem length_stars (count : Nat) : (stars count).length = count :=
  List.length_replicate

/-- As many pointers are made as there are stars. -/
theorem starRounds_read
    {count bound : Nat}
    {shape : Shape}
    {base : TyId}
    (shows : state.Shows (stars count))
    (ends : (state.token (state.pos + count)).isSymbol "*" = false)
    (enough : count < bound)
    (denotes : shape.Denotes setting.types state.tokens state.program.types base) :
    Settles (iterateFor starRound bound base) state (state.pos + count) True
      fun types id => (shape.pointers count).Denotes setting.types state.tokens
        types id := by
  obtain ⟨bound, rfl⟩ :=
    Nat.exists_eq_succ_of_ne_zero (Nat.ne_of_gt (Nat.zero_lt_of_lt enough))
  induction count generalizing state shape base bound with
  | zero =>
      have done : starRound base state = .ok (.done base) state :=
        accept_else (show state.sees "*" = false from ends)
      exact .inl ⟨trivial, base, state.program.types, iterateFor_done done bound,
        .refl _, denotes⟩
  | succ count hypothesis =>
      have less := Nat.lt_of_succ_lt_succ enough
      obtain ⟨bound, rfl⟩ :=
        Nat.exists_eq_succ_of_ne_zero (Nat.ne_of_gt (Nat.zero_lt_of_lt less))
      have here : state.sees "*" = true := shows.sees
      have goes : starRound base state = .ok (.again ⟨state.program.types.entries.size⟩)
          (state.placed (state.pos + 1) (state.program.types.pointerTo base).2) :=
            accept_then here
      have longer : state.program.types.Extends (state.program.types.pointerTo base).2 :=
        .insert _ _
      have entered : (Shape.pointer shape).Denotes setting.types state.tokens
          (state.program.types.pointerTo base).2 ⟨state.program.types.entries.size⟩ :=
        ⟨base, TypeTable.get?_insert_self _ _, denotes.mono longer⟩
      have behind : (state.placed (state.pos + 1)
          (state.program.types.pointerTo base).2).Shows (stars count) := shows.next
      refine .of_run (iterateFor_again goes _) longer ?_
      rw [← Nat.add_assoc, Nat.add_right_comm] at ends ⊢
      exact hypothesis behind ends entered bound less

/-- Stars are read up to what is none, each as a pointer to the type before it. -/
theorem pointers_read
    {count : Nat}
    {shape : Shape}
    {base : TyId}
    (shows : state.Shows (stars count))
    (ends : (state.token (state.pos + count)).isSymbol "*" = false)
    (denotes : shape.Denotes setting.types state.tokens state.program.types base) :
    Settles (pointers base) state (state.pos + count) True
      fun types id => (shape.pointers count).Denotes setting.types state.tokens
        types id := by
  have enough : count ≤ state.tokens.last := by
    have length := shows.length_le
    rw [length_stars] at length
    omega
  exact .of_run (iterate_run base starRound) (.refl _)
    (starRounds_read shows ends (Nat.lt_of_le_of_lt enough (by omega)) denotes)

/-! ## Arrays -/

/-- An array is entered if its size is in range. -/
theorem arrayOf_reads
    {element : TyId}
    {length : Nat}
    {shape : Shape}
    (denotes : shape.Denotes setting.types state.tokens state.program.types element)
    (longer : setting.types.Extends state.program.types)
    (tok : Nat)
    (cause : TypingError) :
    Settles (arrayOf element length tok cause) state state.pos
      (Extent.InRange (shape.size setting.types * length))
      fun types id =>
        (Shape.array shape length).Denotes setting.types state.tokens types id := by
  obtain ⟨ty, found, size⟩ := denotes.entry longer
  have made : state.program.types.arrayOf element length =
      if Extent.InRange (ty.size * length) then
        .ok (state.program.types.insert
          ⟨.array element length, ty.size * length, ty.align, none⟩)
      else .error .sizeOverflow := by
    rw [TypeTable.arrayOf, TypeTable.entry_eq_ok found]
    change (Layout.sized (Extent.check? _) >>= _) = _
    unfold Extent.check?
    split <;> rfl
  rw [← size]
  by_cases inRange : Extent.InRange (ty.size * length)
  · rw [if_pos inRange] at made
    have extended : state.program.types.Extends (state.program.types.insert
        ⟨.array element length, ty.size * length, ty.align, none⟩).2 := .insert _ _
    refine .inl ⟨inRange, _, _, ?_, extended,
      ⟨element, ty, extended _ _ found,
        TypeTable.get?_insert_self _ _, denotes.mono extended⟩⟩
    unfold arrayOf
    rw [get_run, made]
    rfl
  · rw [if_neg inRange] at made
    refine .inr ⟨inRange, .rejected (.typing cause) (state.token tok).loc, state, ?_⟩
    unfold arrayOf
    rw [get_run, made]
    rfl

/-! ## What begins and ends a declarator -/

/-- A token that ends a parameter. -/
def Separates (token : Token) :
    Prop := token.isSymbol "," = true ∨ token.isSymbol ")" = true

/-- A token is at most one symbol. -/
theorem isSymbol_eq_false {token : Token} {symbol other : String}
    (here : token.isSymbol symbol = true) (differ : symbol ≠ other) :
    token.isSymbol other = false := by
  unfold Token.isSymbol at *
  split at here
  · simp_all
  · simp_all
  · cases here

namespace Separates

variable {token : Token}

theorem isSymbol_eq_false {symbol : String} (separates : Separates token)
    (noComma : "," ≠ symbol) (noParenthesis : ")" ≠ symbol) :
    token.isSymbol symbol = false := by
  rcases separates with comma | parenthesis
  · exact Declarators.isSymbol_eq_false comma noComma
  · exact Declarators.isSymbol_eq_false parenthesis noParenthesis

theorem isIdentifier_eq_false (separates : Separates token) :
    token.isIdentifier = false := by
  have some {symbol : String} (here : token.isSymbol symbol = true) :
      token.isIdentifier = false := by
    unfold Token.isSymbol at here
    unfold Token.isIdentifier
    split at here
    · rename_i kind
      rw [kind]
      rfl
    · rename_i kind
      rw [kind]
      rfl
    · cases here
  exact separates.elim some some

/-- A token that separates declarators begins none. -/
theorem quiet (separates : Separates token) : Quiet token := by
  intro symbol listed
  have comma : "," ∉ openBrace :: State.typeKeywords := by decide
  have parenthesis : ")" ∉ openBrace :: State.typeKeywords := by decide
  refine separates.isSymbol_eq_false ?_ ?_
  · rintro rfl
    exact comma listed
  · rintro rfl
    exact parenthesis listed

theorem endsSuffix (separates : Separates token) :
    ∀ suffix : Suffix, suffix.Ends token
  | .nothing =>
      ⟨separates.isSymbol_eq_false (by decide) (by decide),
        separates.isSymbol_eq_false (by decide) (by decide)⟩
  | .array _ rest => separates.endsSuffix rest
  | .function _ => trivial

/-- Any declarator ends in front of a token that separates them. -/
theorem ends (separates : Separates token) (phrase : Phrase) : phrase.Ends token := by
  cases phrase with
  | plain count name suffix =>
      cases name with
      | some name => exact separates.endsSuffix suffix
      | none =>
          cases suffix with
          | nothing =>
              exact ⟨separates.isSymbol_eq_false (by decide) (by decide),
                separates.isSymbol_eq_false (by decide) (by decide),
                separates.isSymbol_eq_false (by decide) (by decide),
                separates.isIdentifier_eq_false⟩
          | array length rest => exact separates.endsSuffix (.array length rest)
          | function params => trivial
  | nested count inner suffix => exact separates.endsSuffix suffix

end Separates

/-- A lexeme that neither belongs to specifiers nor opens a body nor closes a
parenthesis. -/
def QuietLexeme (lexeme : Lexeme) : Prop :=
  ∀ symbol ∈ ")" :: openBrace :: State.typeKeywords, lexeme.isSymbol symbol = false

theorem Suffix.quiet (suffix : Suffix) :
    ∀ lexeme ∈ suffix.lexemes.head?, QuietLexeme lexeme := by
  cases suffix with
  | nothing => exact nofun
  | array length rest =>
      rintro lexeme ⟨⟩
      unfold QuietLexeme
      decide
  | function params =>
      rintro lexeme ⟨⟩
      unfold QuietLexeme
      decide

/-- No declarator begins with the word of a type. -/
theorem Phrase.quiet (phrase : Phrase) :
    ∀ lexeme ∈ phrase.lexemes.head?, QuietLexeme lexeme := by
  have star : QuietLexeme (.symbol "*") := by
    unfold QuietLexeme
    decide
  cases phrase with
  | plain count name suffix =>
      cases count with
      | zero =>
          cases name with
          | none => exact suffix.quiet
          | some name =>
              rintro lexeme ⟨⟩
              exact fun _ _ => rfl
      | succ count =>
          rintro lexeme ⟨⟩
          exact star
  | nested count inner suffix =>
      cases count with
      | zero =>
          rintro lexeme ⟨⟩
          unfold QuietLexeme
          decide
      | succ count =>
          rintro lexeme ⟨⟩
          exact star

/-- Neither a declarator nor what ends a parameter belongs to the specifiers before it. -/
theorem quiet_current
    {phrase : Phrase}
    (shows : state.Shows phrase.lexemes)
    (separates : Separates (state.token (state.pos + phrase.lexemes.length))) :
    Quiet state.current := by
  have quiet := phrase.quiet
  cases lexemes : phrase.lexemes with
  | nil =>
      rw [lexemes] at separates
      exact separates.quiet
  | cons lexeme rest =>
      rw [lexemes] at quiet shows
      intro symbol listed
      exact shows.sees_eq_false (quiet lexeme rfl symbol (List.mem_cons_of_mem _ listed))

/-- The innermost name stands at its offset. -/
theorem Phrase.names {tokens : TokenStream} :
    ∀ {phrase : Phrase} {index : Nat}, tokens.Shows index phrase.lexemes ->
      Names tokens phrase.name (phrase.nameOffset.map (index + ·))
  | .plain _ none _, _, _ => trivial
  | .plain count (some name) suffix, index, shows => by
      have behind := (TokenStream.Shows.append shows).2
      rw [length_stars] at behind
      exact behind.2.1
  | .nested count inner suffix, index, shows => by
      have behind := (TokenStream.Shows.append shows).2.2.2
      rw [length_stars] at behind
      have inside := Phrase.names behind.append.1
      rw [Phrase.nameOffset, Option.map_map]
      have same : (fun offset => index + offset) ∘ (fun offset => count + 1 + offset) =
          (fun offset => index + count + 1 + offset) := by
        funext offset
        simp only [Function.comp_apply]
        omega
      rw [same]
      exact inside

/-! ## Parameters -/

/-- A production reads the specifiers of fewer lexemes than a depth. -/
def ReadsSpecifiers (setting : Setting) (depth : Nat) (parser : Parser (TyId × Storage)) :
    Prop :=
  ∀ {specifier : Specifier} {state : State}, specifier.lexemes.length < depth ->
    specifier.Clear setting.scopes -> setting.Holds state ->
    state.Shows specifier.lexemes ->
    Quiet (state.token (state.pos + specifier.lexemes.length)) ->
    Settles parser state (state.pos + specifier.lexemes.length)
      (specifier.ty? setting).isSome fun types result =>
        (specifier.shape setting).Denotes setting.types state.tokens types result.1

/-- A production reads the declarators of fewer lexemes than a depth. -/
def ReadsPhrase (setting : Setting) (depth : Nat) (parser : TyId -> Parser Declarator) :
    Prop :=
  ∀ {phrase : Phrase} {state : State} {shape : Shape} {base : TyId},
    phrase.lexemes.length < depth -> phrase.Clear setting.scopes -> setting.Holds state ->
    state.Shows phrase.lexemes ->
    phrase.Ends (state.token (state.pos + phrase.lexemes.length)) ->
    shape.Denotes setting.types state.tokens state.program.types base ->
    Settles (parser base) state (state.pos + phrase.lexemes.length)
      (phrase.Accepts setting shape) fun types declared => declared.start = state.pos ∧
        declared.name = phrase.nameOffset.map (state.pos + ·) ∧
        (phrase.reading setting shape).Denotes setting.types state.tokens
          types declared.ty

/-- A production reads the suffixes of fewer lexemes than a depth. -/
def ReadsSuffix (setting : Setting) (depth : Nat) (parser : TyId -> Parser TyId) : Prop :=
  ∀ {suffix : Suffix} {state : State} {shape : Shape} {base : TyId},
    suffix.lexemes.length < depth -> suffix.Clear setting.scopes -> setting.Holds state ->
    state.Shows suffix.lexemes ->
    suffix.Ends (state.token (state.pos + suffix.lexemes.length)) ->
    shape.Denotes setting.types state.tokens state.program.types base ->
    Settles (parser base) state (state.pos + suffix.lexemes.length)
      (suffix.Accepts setting shape)
      fun types id => (suffix.reading setting shape).Denotes setting.types
        state.tokens types id

/-- Productions that read what has fewer lexemes than a depth. -/
structure ReadsBelow (setting : Setting) (depth : Nat) (again : Productions) : Prop where
  specifiers : ReadsSpecifiers setting depth (again.specifiers false)
  declarator : ReadsPhrase setting depth again.declarator
  suffix : ReadsSuffix setting depth again.suffix

/-- The type of a parameter is that it was declared with, or a pointer in place of an
array. -/
theorem parameterTy_reads
    (closed : setting.Closed)
    (holds : setting.Holds state)
    {shape : Shape}
    {id : TyId}
    (denotes : shape.Denotes setting.types state.tokens state.program.types id) :
    Settles (parameterTy id) state state.pos True fun types result =>
      (shape.decayed setting.types).Denotes setting.types state.tokens types result := by
  obtain ⟨ty, found, -⟩ := denotes.entry holds.longer
  have entry : lookupTy id state = .ok ty state := lookupTy_run found
  rcases denotes.decays closed.sound holds.longer found with
    ⟨base, length, target, kind, shaped, element⟩ | ⟨noArray, shaped⟩
  · have run : parameterTy id state = pointerTo base state := by
      unfold parameterTy
      rw [bind_run entry, kind]
    rw [shaped]
    exact .of_run run (.refl _) (pointerTo_reads element)
  · refine .inl ⟨trivial, id, state.program.types, ?_, .refl _, by rwa [shaped]⟩
    unfold parameterTy
    rw [bind_run entry]
    cases kind : ty.kind with
    | array base length => exact absurd kind (noArray base length)
    | _ => rfl

end Declarators
end MiniC
