import MiniC.Proofs.Declarator.Parts

/-!
# Reading parameters

The loop over parameters takes one round for each and one for the closing parenthesis.
Behind the opening parenthesis the word `void` alone stands for no parameters.
-/

namespace MiniC
namespace Declarators

open Precedence Grammar

variable {setting : Setting} {state : State} {again : Productions} {depth : Nat}

/-! ## One parameter -/

/-- What a parameter that has been read is. -/
def Phrase.IsParam (setting : Setting) (specifier : Specifier) (phrase : Phrase)
    (tokens : TokenStream) (types : TypeTable) (param : Param) : Prop :=
  Names tokens phrase.name param.name ∧
    ((phrase.reading setting (specifier.shape setting)).decayed setting.types).Denotes
      setting.types tokens types param.ty

theorem parameter_reads
    (closed : setting.Closed)
    (read : ReadsBelow setting depth again)
    (holds : setting.Holds state)
    {specifier : Specifier}
    {phrase : Phrase}
    (specifierClear : specifier.Clear setting.scopes)
    (clear : phrase.Clear setting.scopes)
    (shows : state.Shows (specifier.lexemes ++ phrase.lexemes))
    (separates : Separates
      (state.token (state.pos + (specifier.lexemes ++ phrase.lexemes).length)))
    (short : (specifier.lexemes ++ phrase.lexemes).length < depth) :
    Settles (parameter again) state
      (state.pos + (specifier.lexemes ++ phrase.lexemes).length)
      ((specifier.ty? setting).isSome ∧ phrase.Accepts setting (specifier.shape setting))
      fun types param => phrase.IsParam setting specifier state.tokens types param := by
  rw [List.length_append] at separates short ⊢
  rw [← Nat.add_assoc] at separates ⊢
  obtain ⟨front, back⟩ := TokenStream.Shows.append shows
  have quiet : Quiet (state.token (state.pos + specifier.lexemes.length)) :=
    @quiet_current (state.placed (state.pos + specifier.lexemes.length)
      state.program.types) phrase back separates
  refine .bind (read.specifiers (by omega) specifierClear holds front quiet)
    fun named types longer denotes => ?_
  obtain ⟨base, storage⟩ := named
  have inside := holds.placed longer (state.pos + specifier.lexemes.length)
  refine .before (read.declarator (by omega) clear inside back
    (separates.ends phrase) denotes) fun declared more further good => ?_
  obtain ⟨-, named, shaped⟩ := good
  refine .behind (parameterTy_reads closed (inside.placed further _) shaped)
    fun ty last latest decays => .pure ⟨?_, decays⟩
  rw [named]
  exact Phrase.names back

/-- One round of the loop over parameters. -/
def paramsRound (again : Productions) (params : List Param) :
    Parser (Round (List Param) (List Param)) := do
  if ← accept ")" then
    return .done params
  else
    unless params.isEmpty do
      expect ","
    return .again (params ++ [← parameter again])

/-- What follows a parameter separates it from what is behind. -/
theorem Parameters.separates {tokens : TokenStream} {index : Nat} {params : Parameters}
    (shows : tokens.Shows index (params.following ++ [Lexeme.symbol ")"])) :
    Separates (tokens.get index) := by
  cases params with
  | nil =>
      refine .inr ?_
      rw [shows.2.1.isSymbol_eq]
      rfl
  | cons specifier phrase rest =>
      refine .inl ?_
      rw [shows.2.1.isSymbol_eq]
      rfl

/-- A round with a parameter in it. -/
theorem paramsRound_reads
    (closed : setting.Closed)
    (read : ReadsBelow setting depth again)
    (holds : setting.Holds state)
    {specifier : Specifier}
    {phrase : Phrase}
    {rest : Parameters}
    {before : List Param}
    {start : Nat}
    (clear : (Parameters.cons specifier phrase rest).Clear setting.scopes)
    (run : paramsRound again before state = (do
      return .again (before ++ [← parameter again]) : Parser (Round _ (List Param)))
        (state.placed start state.program.types))
    (shows : state.tokens.Shows start
      (specifier.lexemes ++ phrase.lexemes ++ (rest.following ++ [Lexeme.symbol ")"])))
    (short : (specifier.lexemes ++ phrase.lexemes).length < depth) :
    Settles (paramsRound again before) state
      (start + (specifier.lexemes ++ phrase.lexemes).length)
      ((specifier.ty? setting).isSome ∧ phrase.Accepts setting (specifier.shape setting))
      fun types round => ∃ param, round = .again (before ++ [param]) ∧
        phrase.IsParam setting specifier state.tokens types param := by
  obtain ⟨front, back⟩ := TokenStream.Shows.append shows
  have here := holds.placed (.refl _) start
  refine .of_run run (.refl _) ?_
  refine .before (parameter_reads closed read here clear.1 clear.2.1 front
    (Parameters.separates back) short)
    fun param types longer good => .pure ⟨param, rfl, good⟩

/-- Parameters that have been read behind others. -/
def Parameters.AreBehind (setting : Setting) (params : Parameters) (before : List Param)
    (tokens : TokenStream) (types : TypeTable) (list : List Param) : Prop :=
  ∃ more, list = before ++ more ∧
    (params.reading setting).Denote setting.types tokens types more

/-- One more parameter in front of others. -/
theorem iterateFor_paramsRound_reads
    {specifier : Specifier}
    {phrase : Phrase}
    {rest : Parameters}
    {before : List Param}
    {middle stop bound : Nat}
    (first : Settles (paramsRound again before) state middle
      ((specifier.ty? setting).isSome ∧ phrase.Accepts setting (specifier.shape setting))
      fun types round => ∃ param, round = .again (before ++ [param]) ∧
        phrase.IsParam setting specifier state.tokens types param)
    (others : ∀ param types, state.program.types.Extends types ->
      Settles (iterateFor (paramsRound again) bound (before ++ [param]))
        (state.placed middle types) stop (rest.Accepts setting)
        fun types list => rest.AreBehind setting
          (before ++ [param]) state.tokens types list) :
    Settles (iterateFor (paramsRound again) (bound + 1) before) state stop
      ((Parameters.cons specifier phrase rest).Accepts setting)
      fun types list => (Parameters.cons specifier phrase rest).AreBehind setting before
        state.tokens types list := by
  rw [iterateFor]
  refine (Settles.bind first fun round types longer good => ?_).iff and_assoc
  obtain ⟨param, rfl, named, shaped⟩ := good
  refine (others param types longer).weaken fun more list further behind => ?_
  obtain ⟨tail, rfl, denote⟩ := behind
  exact ⟨param :: tail, by simp, param, tail, rfl, named, shaped.mono further, denote⟩

/-- Parameters with a comma before each are read up to the closing parenthesis. -/
theorem following_reads
    (closed : setting.Closed)
    (read : ReadsBelow setting depth again) :
    ∀ {params : Parameters} {state : State} {before : List Param} {bound : Nat},
      params.Clear setting.scopes -> setting.Holds state ->
      state.Shows (params.following ++ [Lexeme.symbol ")"]) -> before ≠ [] ->
      params.following.length < bound -> params.following.length < depth ->
      Settles (iterateFor (paramsRound again) bound before) state
        (state.pos + (params.following.length + 1)) (params.Accepts setting)
        fun types list => params.AreBehind setting before state.tokens types list
  | .nil, state, before, bound, clear, holds, shows, nonempty, enough, short => by
      obtain ⟨bound, rfl⟩ :=
        Nat.exists_eq_succ_of_ne_zero (Nat.ne_of_gt (Nat.zero_lt_of_lt enough))
      have done : paramsRound again before state = .ok (.done before) state.next :=
        accept_then shows.sees
      exact .inl ⟨trivial, before, state.program.types,
        iterateFor_done done bound, .refl _, [], (List.append_nil _).symm, rfl⟩
  | .cons specifier phrase rest, state, before, bound, clear, holds, shows,
    nonempty, enough,
      short => by
      obtain ⟨bound, rfl⟩ :=
        Nat.exists_eq_succ_of_ne_zero (Nat.ne_of_gt (Nat.zero_lt_of_lt enough))
      have length : (Parameters.cons specifier phrase rest).following.length =
          1 + (specifier.lexemes ++ phrase.lexemes).length + rest.following.length := by
        simp only [Parameters.following, List.length_cons, List.length_append]
        omega
      rw [length] at enough short ⊢
      have text : (Parameters.cons specifier phrase rest).following ++
          [Lexeme.symbol ")"] = .symbol "," :: (specifier.lexemes ++ phrase.lexemes ++
            (rest.following ++ [Lexeme.symbol ")"])) := by
        simp [Parameters.following]
      rw [text] at shows
      have run : paramsRound again before state = (do
          return .again (before ++ [← parameter again]) : Parser (Round _ (List Param)))
            state.next := by
        refine (accept_else (State.sees_eq_false shows.sees (by decide))).trans ?_
        rw [if_neg (by simp [nonempty])]
        exact bind_run (expect_run shows.sees)
      have first := paramsRound_reads closed read holds clear run shows.next (by omega)
      refine iterateFor_paramsRound_reads first fun param types longer => ?_
      have start : state.next.pos = state.pos + 1 := rfl
      have back : (state.placed
          (state.next.pos + (specifier.lexemes ++ phrase.lexemes).length)
          types).Shows (rest.following ++ [Lexeme.symbol ")"]) :=
        (TokenStream.Shows.append shows.next).2
      have all := following_reads closed read clear.2.2 (holds.placed longer _) back
        (show before ++ [param] ≠ [] by simp)
        (show rest.following.length < bound by omega)
        (by omega)
      have stop : state.pos + (1 + (specifier.lexemes ++ phrase.lexemes).length +
          rest.following.length + 1) = state.next.pos +
          (specifier.lexemes ++ phrase.lexemes).length + (rest.following.length + 1) := by
        omega
      rw [stop]
      exact all

theorem Phrase.eq_plain_of_lexemes_eq_nil {phrase : Phrase}
    (empty : phrase.lexemes = []) :
    phrase = .plain 0 none .nothing := by
  cases phrase with
  | plain count name suffix =>
      simp only [Phrase.lexemes, stars, List.append_eq_nil_iff, List.replicate_eq_nil_iff,
        List.map_eq_nil_iff, Option.toList_eq_nil_iff] at empty
      obtain ⟨rfl, rfl, none⟩ := empty
      cases suffix with
      | nothing => rfl
      | array | function => cases none
  | nested count inner suffix => simp [Phrase.lexemes] at empty

/-- The lexemes of specifiers begin with one that is no parenthesis. -/
theorem Specifier.exists_cons (specifier : Specifier) :
    ∃ first rest, specifier.lexemes = first :: rest ∧ first.isSymbol ")" = false := by
  cases specifier with
  | words first more => exact ⟨_, _, rfl, by cases first <;> decide⟩
  | typedef name => exact ⟨_, _, rfl, rfl⟩
  | tagged keyword tag => exact ⟨_, _, rfl, by cases keyword <;> decide⟩

theorem Parameters.isVoid_iff {params : Parameters} :
    params.isVoid = true ↔
      params = .cons (.words .void []) (.plain 0 none .nothing) .nil := by
  constructor
  · intro isVoid
    unfold Parameters.isVoid at isVoid
    split at isVoid
    · rfl
    · cases isVoid
  · rintro rfl
    rfl

/-- What the word `void` begins is it alone exactly if the parenthesis closes behind
it. -/
theorem sees_behind_void {phrase : Phrase} {rest : Parameters}
    (shows : state.Shows (phrase.lexemes ++ rest.following ++ [Lexeme.symbol ")"])) :
    state.sees ")" = (Parameters.cons (.words .void []) phrase rest).isVoid := by
  cases lexemes : phrase.lexemes with
  | nil =>
      rw [lexemes] at shows
      obtain rfl := Phrase.eq_plain_of_lexemes_eq_nil lexemes
      cases rest with
      | nil => exact shows.sees
      | cons specifier phrase rest => exact shows.sees_eq_false (by decide)
  | cons lexeme others =>
      rw [lexemes] at shows
      have quiet := phrase.quiet lexeme (by rw [lexemes]; rfl) ")" List.mem_cons_self
      rw [shows.sees_eq_false quiet]
      refine (Bool.eq_false_iff.mpr fun isVoid => ?_).symm
      cases Parameters.isVoid_iff.mp isVoid
      cases lexemes

/-- The word `void` before a closing parenthesis is all that stands in it. -/
theorem seesVoid_eq {params : Parameters}
    (shows : state.Shows (params.following.tail ++ [Lexeme.symbol ")"])) :
    (state.sees "void" && state.seesAt (state.pos + 1) ")") = params.isVoid := by
  cases params with
  | nil =>
      rw [State.sees_eq_false shows.sees (by decide)]
      rfl
  | cons specifier phrase rest =>
      rw [Parameters.following, List.tail_cons, List.append_assoc] at shows
      cases specifier with
      | typedef name =>
          rw [shows.sees_eq_false rfl]
          rfl
      | tagged keyword tag =>
          rw [shows.sees_eq_false (by cases keyword <;> decide)]
          rfl
      | words first more =>
          have word : state.sees (wordText first) = true := shows.sees
          by_cases isVoid : first = .void
          · subst isVoid
            rw [show state.sees "void" = true from word, Bool.true_and]
            cases more with
            | nil => exact sees_behind_void shows.next
            | cons second more =>
                exact shows.next.sees_eq_false (by cases second <;> decide)
          · have other : wordText first ≠ "void" := by
              cases first <;> first | decide | exact absurd rfl isVoid
            rw [State.sees_eq_false word other]
            cases first <;> first | rfl | exact absurd rfl isVoid

theorem parameters_run (again : Productions) (result : TyId) (state : State) :
    parameters again result state =
      if state.sees "void" && state.seesAt (state.pos + 1) ")" then
        (do
          advance
          advance
          enterTy (·.function result []) : Parser TyId) state
      else
        (do
          let params ← iterate [] (paramsRound again)
          enterTy (·.function result params) : Parser TyId) state := by
  unfold parameters
  rw [get_run]
  split
  · rfl
  · rfl

theorem function_reads
    {shape : Shape}
    {result : TyId}
    {params : Parameters}
    {list : List Param}
    (denotes : shape.Denotes setting.types state.tokens state.program.types result)
    (denote : (if params.isVoid then Shapes.nil else params.reading setting).Denote
      setting.types state.tokens state.program.types list) :
    Settles (enterTy (·.function result list)) state state.pos True fun types id =>
      ((Suffix.function params).reading setting shape).Denotes setting.types
        state.tokens types id :=
  have longer :
      state.program.types.Extends (state.program.types.function result list).2 :=
    .insert _ _
  .inl ⟨trivial, _, _, enterTy_run _, longer,
    ⟨result, list, TypeTable.get?_insert_self _ _, denotes.mono longer,
      denote.mono longer⟩⟩

/-- Parameters are read from behind the opening to behind the closing parenthesis. -/
theorem parameters_read
    (closed : setting.Closed)
    (read : ReadsBelow setting depth again)
    (holds : setting.Holds state)
    {params : Parameters}
    (clear : params.Clear setting.scopes)
    (shows : state.Shows (params.following.tail ++ [Lexeme.symbol ")"]))
    (short : params.following.length < depth + 1)
    {shape : Shape}
    {result : TyId}
    (denotes : shape.Denotes setting.types state.tokens state.program.types result) :
    Settles (parameters again result) state
      (state.pos + (params.following.tail.length + 1))
      (params.Accepts setting) fun types id =>
        ((Suffix.function params).reading setting shape).Denotes setting.types
          state.tokens types id := by
  have run := parameters_run again result state
  rw [seesVoid_eq shows] at run
  cases isVoid : params.isVoid with
  | true =>
      rw [isVoid, if_pos rfl] at run
      obtain rfl := Parameters.isVoid_iff.mp isVoid
      have word : state.Shows (.symbol "void" :: [Lexeme.symbol ")"]) := shows
      have skipped := run.trans
        ((bind_run word.advance_run).trans (bind_run word.next.advance_run))
      refine (Settles.of_run skipped (.refl _) ?_).iff
        (iff_of_true trivial ⟨rfl, trivial, trivial⟩)
      exact function_reads denotes rfl
  | false =>
      rw [isVoid, if_neg Bool.false_ne_true] at run
      refine .of_run run (.refl _) ?_
      cases params with
      | nil =>
          have done : iterate [] (paramsRound again) state = .ok [] state.next :=
            iterate_done (accept_then shows.sees)
          refine .of_run (bind_run done) (.refl _) ?_
          exact function_reads denotes rfl
      | cons specifier phrase rest =>
          have text :
              (Parameters.cons specifier phrase rest).following.tail ++
                [Lexeme.symbol ")"] =
                specifier.lexemes ++ phrase.lexemes ++
                  (rest.following ++ [Lexeme.symbol ")"]) := by
            simp [Parameters.following]
          have length : (Parameters.cons specifier phrase rest).following.length =
              1 + (specifier.lexemes ++ phrase.lexemes).length +
                rest.following.length := by
            simp only [Parameters.following, List.length_cons, List.length_append]
            omega
          rw [text] at shows
          rw [List.length_tail, length]
          rw [length] at short
          have long := shows.length_le
          simp only [List.length_append] at long
          have opens : paramsRound again [] state = (do
              return .again ([] ++ [← parameter again]) : Parser (Round _ (List Param)))
                state := by
            obtain ⟨first, others, lexemes, other⟩ := specifier.exists_cons
            rw [lexemes] at shows
            exact accept_else (shows.sees_eq_false other)
          have first := paramsRound_reads closed read holds clear opens shows (by omega)
          have start : state.pos + (1 + (specifier.lexemes ++ phrase.lexemes).length +
              rest.following.length - 1 + 1) = state.pos +
              (specifier.lexemes ++ phrase.lexemes).length +
                (rest.following.length + 1) := by
            omega
          rw [start]
          have others (param : Param) (types : TypeTable)
              (longer : state.program.types.Extends types) :
              Settles (iterateFor (paramsRound again) (state.tokens.last + 1)
                ([] ++ [param]))
                (state.placed (state.pos + (specifier.lexemes ++ phrase.lexemes).length)
                  types)
                (state.pos + (specifier.lexemes ++ phrase.lexemes).length +
                  (rest.following.length + 1))
                (rest.Accepts setting)
                fun types list => rest.AreBehind setting
                  ([] ++ [param]) state.tokens types list :=
            following_reads closed read clear.2.2 (holds.placed longer _)
              (TokenStream.Shows.append shows).2 (by simp) (by omega) (by omega)
          have all := iterateFor_paramsRound_reads first others
          refine .before (.of_run (iterate_run [] (paramsRound again)) (.refl _) all)
            fun list types longer good => ?_
          obtain ⟨more, rfl, denote⟩ := good
          refine function_reads (denotes.mono longer) ?_
          rw [isVoid]
          exact denote

end Declarators
end MiniC
