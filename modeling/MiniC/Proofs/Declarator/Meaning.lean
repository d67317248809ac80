import MiniC.Proofs.Declarator.Parameters
import MiniC.Proofs.Grammar.Units

/-!
# Declarators are read as they are meant

Over productions that read what is shorter, suffixes and declarators are read, and so, by
induction on their depth, productions read whatever has fewer lexemes than they are deep.
A declarator in parentheses is read twice from the same place: for its end, and for its
type once the suffix behind it is known.
-/

namespace MiniC
namespace Declarators

open Precedence Grammar

variable {setting : Setting} {state : State} {again : Productions} {depth : Nat}

/-! ## Suffixes -/

/-- An array is made once what it is an array of is known to have a size. -/
theorem sizedArray_reads
    {shape : Shape}
    {element : TyId}
    (denotes : shape.Denotes setting.types state.tokens state.program.types element)
    (longer : setting.types.Extends state.program.types)
    (length tok : Nat) :
    Settles (do
        if (← lookupTy element).size < 0 then
          failAt tok (.typing .incompleteElement)
        arrayOf element length tok .arrayTooLarge)
      state state.pos
      (0 ≤ shape.size setting.types ∧ Extent.InRange (shape.size setting.types * length))
      fun types id =>
        (Shape.array shape length).Denotes setting.types state.tokens types id := by
  obtain ⟨ty, found, size⟩ := denotes.entry longer
  have entry : lookupTy element state = .ok ty state := lookupTy_run found
  by_cases incomplete : ty.size < 0
  · refine .inr ⟨fun known => by omega,
      .rejected (.typing .incompleteElement) (state.token tok).loc, state,
      (bind_run entry).trans ?_⟩
    rw [if_pos incomplete]
    rfl
  · have made : Settles (arrayOf element length tok .arrayTooLarge) state state.pos _ _ :=
      arrayOf_reads denotes longer tok .arrayTooLarge
    refine .of_run ((bind_run entry).trans ?_) (.refl _) (made.iff (by simp; omega))
    rw [if_neg incomplete]
    rfl

theorem arraySuffix_reads
    (read : ReadsBelow setting depth again)
    (holds : setting.Holds state)
    {length : Nat}
    {rest : Suffix}
    (clear : rest.Clear setting.scopes)
    (shows : state.Shows (.number length :: .symbol "]" :: rest.lexemes))
    (ends : rest.Ends (state.token (state.pos + 2 + rest.lexemes.length)))
    (short : rest.lexemes.length < depth)
    {shape : Shape}
    {base : TyId}
    (denotes : shape.Denotes setting.types state.tokens state.program.types base) :
    Settles (arraySuffix again base) state (state.pos + 2 + rest.lexemes.length)
      ((Suffix.array length rest).Accepts setting shape)
      fun types id => ((Suffix.array length rest).reading setting shape).Denotes
        setting.types state.tokens types id := by
  have number : number state = .ok (length : Int) state.next :=
    number_run (shows.sees_eq_false rfl) shows.current
  have run : arraySuffix again base state = (do
      let element ← again.suffix base
      if (← lookupTy element).size < 0 then
        failAt state.pos (.typing .incompleteElement)
      arrayOf element length state.pos .arrayTooLarge : Parser TyId) state.next.next := by
    unfold arraySuffix
    rw [position_run, bind_run number,
      if_neg (Int.not_lt.mpr (Int.natCast_nonneg length))]
    exact bind_run (expect_run shows.next.sees)
  have inside : setting.Holds state.next.next := holds.placed (.refl _) (state.pos + 2)
  refine .of_run run (.refl _) ?_
  refine .bind (read.suffix short clear inside shows.next.next ends denotes)
    fun element types longer good => ?_
  have further : setting.types.Extends types := inside.longer.trans longer
  exact @sizedArray_reads setting (state.placed _ types) _ element good further
    length state.pos

theorem suffix_reads (closed : setting.Closed) (read : ReadsBelow setting depth again) :
    ReadsSuffix setting (depth + 1) (suffix again) := by
  intro suffix state shape base short clear holds shows ends denotes
  cases suffix with
  | nothing =>
      have run : Grammar.suffix again base state = .ok base state := by
        unfold Grammar.suffix
        exact (accept_else ends.2).trans (accept_else ends.1)
      exact .inl ⟨trivial, base, state.program.types, run, .refl _, denotes⟩
  | array length rest =>
      have run : Grammar.suffix again base state = arraySuffix again base state.next := by
        unfold Grammar.suffix
        exact (accept_else (shows.sees_eq_false rfl)).trans (accept_then shows.sees)
      have stop : state.pos + (Suffix.array length rest).lexemes.length =
          state.next.pos + 2 + rest.lexemes.length := by
        change state.pos + (rest.lexemes.length + 1 + 1 + 1) = state.pos + 1 + 2 + _
        omega
      have small : rest.lexemes.length < depth := by
        change rest.lexemes.length + 1 + 1 + 1 < depth + 1 at short
        omega
      rw [stop] at ends ⊢
      have inside : setting.Holds state.next := holds.placed (.refl _) (state.pos + 1)
      exact .of_run run (.refl _) (arraySuffix_reads read inside
        (show rest.Clear setting.scopes from clear) shows.next ends small denotes)
  | function params =>
      have run : Grammar.suffix again base state = parameters again base state.next := by
        unfold Grammar.suffix
        exact accept_then shows.sees
      have length : (Suffix.function params).lexemes.length =
          params.following.tail.length + 1 + 1 := by
        simp [Suffix.lexemes]
      have stop : state.pos + (Suffix.function params).lexemes.length =
          state.next.pos + (params.following.tail.length + 1) := by
        rw [length]
        change _ = state.pos + 1 + _
        omega
      have small : params.following.length < depth + 1 := by
        rw [length, List.length_tail] at short
        omega
      rw [stop]
      have inside : setting.Holds state.next := holds.placed (.refl _) (state.pos + 1)
      exact .of_run run (.refl _) (parameters_read closed read inside
        (show params.Clear setting.scopes from clear) shows.next small denotes)

/-! ## How declarators begin -/

/-- Specifiers begin with the name of a type. -/
theorem Specifier.startsType {specifier : Specifier}
    (clear : specifier.Clear state.scopes)
    (shows : state.Shows specifier.lexemes) : state.startsType state.pos = true := by
  cases specifier with
  | words first more => exact startsType_of_sees (by cases first <;> decide) shows.sees
  | tagged keyword tag =>
      exact startsType_of_sees (by cases keyword <;> decide) shows.sees
  | typedef name =>
      have identifier : (state.token state.pos).isIdentifier = true :=
        isIdentifier_of_name shows
      have text : (state.token state.pos).text = name.text := shows.current.2
      have named : (state.typedefAt? state.pos).isSome = true := by
        rw [State.typedefAt?, if_pos identifier, text]
        exact clear
      rw [State.startsType, named, Bool.or_true]

/-- Behind an opening parenthesis, parameters look like some. -/
theorem Parameters.startsParameters {params : Parameters}
    (clear : params.Clear state.scopes)
    (shows : state.Shows (params.following.tail ++ [Lexeme.symbol ")"])) :
    state.startsParameters state.pos = true := by
  cases params with
  | nil =>
      have closes : state.seesAt state.pos ")" = true := shows.sees
      rw [State.startsParameters, closes, Bool.true_or]
  | cons specifier phrase rest =>
      rw [Parameters.following, List.tail_cons, List.append_assoc] at shows
      have names := Specifier.startsType clear.1 (TokenStream.Shows.append shows).1
      rw [State.startsParameters, names, Bool.or_true]

/-- Behind an opening parenthesis, a declarator that opens does not look like
parameters. -/
theorem Phrase.Opens.startsParameters_eq_false {phrase : Phrase} {rest : List Lexeme}
    (opens : phrase.Opens state.scopes) (shows : state.Shows (phrase.lexemes ++ rest)) :
    state.startsParameters state.pos = false := by
  have quiet := phrase.quiet
  unfold Phrase.Opens at opens
  cases lexemes : phrase.lexemes with
  | nil =>
      rw [lexemes] at opens
      exact opens.elim
  | cons first others =>
      rw [lexemes] at opens quiet shows
      have absent {symbol : String}
          (listed : symbol ∈ ")" :: openBrace :: State.typeKeywords) :
          state.seesAt state.pos symbol = false :=
        shows.sees_eq_false (quiet first rfl symbol listed)
      have keywords : State.typeKeywords.any (state.seesAt state.pos) = false := by
        rw [List.any_eq_false]
        intro keyword listed
        exact Bool.eq_false_iff.mp
          (absent (List.mem_cons_of_mem _ (List.mem_cons_of_mem _ listed)))
      have noName : state.typedefAt? state.pos = none := by
        cases first with
        | symbol text => exact typedefAt?_eq_none (isIdentifier_of_symbol shows)
        | number value =>
            refine typedefAt?_eq_none ?_
            have kind : (state.token state.pos).kind = .num value := shows.current
            rw [Token.isIdentifier, kind]
            rfl
        | name name =>
            have text : (state.token state.pos).text = name.text := shows.current.2
            have noType : state.scopes.typedef? name.text = none := opens
            simp [State.typedefAt?, text, noType]
      rw [State.startsParameters, State.startsType, absent List.mem_cons_self,
        keywords, noName]
      rfl

/-- What ends a declarator ends its suffix. -/
theorem Phrase.Ends.suffix {token : Token} {count : Nat} {name : Option Identifier}
    {suffix : Suffix} (ends : (Phrase.plain count name suffix).Ends token) :
    suffix.Ends token := by
  cases name with
  | some name => exact ends
  | none =>
      cases suffix with
      | nothing => exact ⟨ends.1, ends.2.1⟩
      | array length rest => exact ends
      | function params => trivial

/-! ## Behind the stars -/

/-- What is read of a declarator behind its stars. -/
def core (again : Productions) (start : Nat) (ty : TyId) : Parser Declarator := do
  let state ← get
  if state.sees "(" && !state.startsParameters (state.pos + 1) then
    let declared ← nestedDeclarator again ty
    return { declared with start := start }
  else
    let name ← identifier?
    return ⟨← suffix again ty, name.map Prod.snd, start⟩

theorem declarator_run (again : Productions) (base : TyId) :
    declarator again base state = (pointers base >>= core again state.pos) state := rfl

theorem identifier?_run_none (other : state.current.isIdentifier = false) :
    identifier? state = .ok none state := by
  change (if state.current.isIdentifier = true then _ else _ : Parser _) state = _
  rw [if_neg (by simp [other])]
  rfl

theorem plain_run
    {start : Nat}
    {ty : TyId}
    {name : Option (String × Nat)}
    {after : State}
    (plain : (state.sees "(" && !state.startsParameters (state.pos + 1)) = false)
    (named : identifier? state = .ok name after) :
    core again start ty state = (do
      return ⟨← suffix again ty, name.map Prod.snd, start⟩ : Parser Declarator)
        after := by
  unfold core
  rw [get_run, plain, if_neg Bool.false_ne_true]
  exact bind_run named

/-- A declarator that is no declarator in parentheses is read behind its stars. -/
theorem plain_reads
    (closed : setting.Closed)
    (read : ReadsBelow setting depth again)
    (holds : setting.Holds state)
    {start count : Nat}
    {name : Option Identifier}
    {suffix : Suffix}
    (clear : suffix.Clear setting.scopes)
    (shows : state.Shows (name.toList.map .name ++ suffix.lexemes))
    (ends : (Phrase.plain count name suffix).Ends
      (state.token (state.pos + (name.toList.map Lexeme.name ++ suffix.lexemes).length)))
    (short : suffix.lexemes.length < depth + 1)
    {shape : Shape}
    {ty : TyId}
    (denotes : shape.Denotes setting.types state.tokens state.program.types ty) :
    Settles (core again start ty) state
      (state.pos + (name.toList.map Lexeme.name ++ suffix.lexemes).length)
      (suffix.Accepts setting shape)
      fun types declared => declared.start = start ∧
        declared.name = name.map (fun _ => state.pos) ∧
        (suffix.reading setting shape).Denotes setting.types state.tokens types
          declared.ty := by
  cases name with
  | some name =>
      have run := @plain_run state again start ty _ _
        (by rw [shows.sees_eq_false rfl]; rfl)
        (identifier?_run (isIdentifier_of_name shows))
      have inside : setting.Holds state.next := holds.placed (.refl _) (state.pos + 1)
      have stop : state.pos +
          ((some name).toList.map Lexeme.name ++ suffix.lexemes).length =
          state.next.pos + suffix.lexemes.length := by
        change state.pos + (suffix.lexemes.length + 1) =
          state.pos + 1 + suffix.lexemes.length
        omega
      rw [stop] at ends ⊢
      refine .of_run run (.refl _) ?_
      exact .before (suffix_reads closed read short clear inside shows.next ends denotes)
        fun id types longer good => .pure ⟨rfl, rfl, good⟩
  | none =>
      have noName : state.current.isIdentifier = false := by
        cases suffix with
        | nothing => exact ends.2.2.2
        | array length rest => exact isIdentifier_of_symbol shows
        | function params => exact isIdentifier_of_symbol shows
      have plain :
          (state.sees "(" && !state.startsParameters (state.pos + 1)) = false := by
        cases suffix with
        | nothing =>
            have other : state.sees "(" = false := ends.2.1
            rw [other, Bool.false_and]
        | array length rest => rw [shows.sees_eq_false rfl, Bool.false_and]
        | function params =>
            have opens : state.next.startsParameters state.next.pos = true := by
              rw [← holds.scopes] at clear
              exact Parameters.startsParameters clear shows.next
            have starts : state.startsParameters (state.pos + 1) = true := opens
            rw [starts, Bool.not_true, Bool.and_false]
      refine .of_run (plain_run plain (identifier?_run_none noName)) (.refl _) ?_
      exact .before (suffix_reads closed read short clear holds shows ends.suffix denotes)
        fun id types longer good => .pure ⟨rfl, rfl, good⟩

theorem seek_run {index : Nat} (inside : index ≤ state.tokens.last) :
    seek index state = .ok () (state.placed index state.program.types) := by
  change EStateM.Result.ok () { state with pos := min index state.tokens.last } = _
  rw [Nat.min_eq_left inside]
  rfl

/-- What is read of a declarator in parentheses once its end and the suffix behind it are
known. -/
def second (again : Productions) (inner start : Nat) (outer : TyId) :
    Parser Declarator := do
  let stop ← position
  seek inner
  let declared ← again.declarator outer
  seek stop
  return { declared with start := start }

theorem nested_run
    {start : Nat}
    {ty : TyId}
    (nested : (state.sees "(" && !state.startsParameters (state.pos + 1)) = true)
    (moves : advance state = .ok () state.next) :
    core again start ty state = (do
      let _ ← again.declarator .int
      expect ")"
      second again (state.pos + 1) start (← suffix again ty) : Parser Declarator)
        state.next := by
  unfold core nestedDeclarator second
  rw [get_run, nested, if_pos rfl]
  simp only [bind_assoc]
  rw [bind_run moves, position_run]
  simp only [pure_bind]
  rfl

/-- The second reading of a declarator in parentheses. -/
theorem second_reads
    (read : ReadsBelow setting depth again)
    (holds : setting.Holds state)
    {inner : Phrase}
    {index start : Nat}
    {rest : List Lexeme}
    (clear : inner.Clear setting.scopes)
    (shows : state.tokens.Shows index (inner.lexemes ++ .symbol ")" :: rest))
    (short : inner.lexemes.length < depth)
    (inside : state.pos ≤ state.tokens.last)
    {shape : Shape}
    {outer : TyId}
    (denotes : shape.Denotes setting.types state.tokens state.program.types outer) :
    Settles (second again index start outer) state state.pos (inner.Accepts setting shape)
      fun types declared => declared.start = start ∧
        declared.name = inner.nameOffset.map (index + ·) ∧
        (inner.reading setting shape).Denotes setting.types state.tokens types
          declared.ty := by
  obtain ⟨front, back⟩ := TokenStream.Shows.append shows
  have before : index ≤ state.tokens.last := by
    have closes := back.1
    omega
  have ends : inner.Ends (state.token (index + inner.lexemes.length)) := by
    refine Separates.ends (.inr ?_) inner
    exact back.2.1.isSymbol_eq ")"
  have run : second again index start outer state = (do
      let declared ← again.declarator outer
      seek state.pos
      return { declared with start := start } : Parser Declarator)
        (state.placed index state.program.types) := by
    unfold second
    rw [position_run, bind_run (seek_run before)]
  refine .of_run run (.refl _) ?_
  refine .before (read.declarator short clear (holds.placed (.refl _) index)
    front ends denotes) fun declared types longer good => ?_
  exact .of_run (bind_run (seek_run inside)) (.refl _) (.pure ⟨rfl, good.2.1, good.2.2⟩)

/-- A declarator in parentheses is read behind its stars. -/
theorem nested_reads
    (closed : setting.Closed)
    (read : ReadsBelow setting depth again)
    (holds : setting.Holds state)
    {start : Nat}
    {inner : Phrase}
    {suffix : Suffix}
    (opens : inner.Opens setting.scopes)
    (innerClear : inner.Clear setting.scopes)
    (suffixClear : suffix.Clear setting.scopes)
    (shows : state.Shows (.symbol "(" ::
      (inner.lexemes ++ .symbol ")" :: suffix.lexemes)))
    (ends : suffix.Ends
      (state.token (state.pos + 1 + inner.lexemes.length + 1 + suffix.lexemes.length)))
    (short : inner.lexemes.length + suffix.lexemes.length < depth)
    {shape : Shape}
    {ty : TyId}
    (denotes : shape.Denotes setting.types state.tokens state.program.types ty) :
    Settles (core again start ty) state
      (state.pos + 1 + inner.lexemes.length + 1 + suffix.lexemes.length)
      (inner.Accepts setting (.given .int) ∧ suffix.Accepts setting shape ∧
        inner.Accepts setting (suffix.reading setting shape))
      fun types declared => declared.start = start ∧
        declared.name = inner.nameOffset.map (state.pos + 1 + ·) ∧
        (inner.reading setting (suffix.reading setting shape)).Denotes
          setting.types state.tokens types declared.ty := by
  have next : state.next.Shows (inner.lexemes ++ .symbol ")" :: suffix.lexemes) :=
    shows.next
  obtain ⟨front, back⟩ := TokenStream.Shows.append next
  have nested : (state.sees "(" && !state.startsParameters (state.pos + 1)) = true := by
    have starts : state.startsParameters (state.pos + 1) = false := by
      rw [← holds.scopes] at opens
      exact @Phrase.Opens.startsParameters_eq_false state.next _ _ opens next
    rw [shows.sees, starts]
    rfl
  have closes :
      inner.Ends (state.next.token (state.next.pos + inner.lexemes.length)) := by
    refine Separates.ends (.inr ?_) inner
    exact back.2.1.isSymbol_eq ")"
  have int :
      (Shape.given .int).Denotes setting.types state.tokens
        state.next.program.types .int :=
    ⟨rfl, .of_get? (closed.sound.primitives .int _ rfl)⟩
  have inside : setting.Holds state.next := holds.placed (.refl _) (state.pos + 1)
  refine .of_run (nested_run nested shows.advance_run) (.refl _) ?_
  refine .bind (read.declarator (by omega) innerClear inside front closes int)
    fun trial types longer _ => ?_
  have closing : (state.next.placed (state.next.pos + inner.lexemes.length) types).Shows
      (.symbol ")" :: suffix.lexemes) := back
  refine .of_run (bind_run (expect_run closing.sees)) (.refl _) ?_
  refine .bind (suffix_reads closed read (by omega) suffixClear
    (inside.placed longer _) closing.next ends (denotes.mono longer))
    fun outer more further good => ?_
  have stop : state.next.pos + inner.lexemes.length + 1 + suffix.lexemes.length ≤
      state.next.tokens.last := by
    have before := back.1
    have long := back.2.2.length_le
    omega
  exact second_reads read ((inside.placed longer _).placed further _) innerClear
    next (by omega) stop good

/-! ## Declarators -/

/-- A lexeme that is no star stands behind stars. -/
theorem noStar_behind {tokens : TokenStream} {count index : Nat} {lexeme : Lexeme}
    {rest : List Lexeme} (shows : tokens.Shows index (stars count ++ lexeme :: rest))
    (noStar : lexeme.isSymbol "*" = false) :
    (tokens.get (index + count)).isSymbol "*" = false := by
  have back := (TokenStream.Shows.append shows).2
  rw [length_stars] at back
  exact (back.2.1.isSymbol_eq "*").trans noStar

/-- No star stands behind the stars of a declarator. -/
theorem noStar_behind_plain
    {tokens : TokenStream}
    {count index : Nat}
    {name : Option Identifier}
    {suffix : Suffix}
    (shows : tokens.Shows index (Phrase.plain count name suffix).lexemes)
    (ends : (Phrase.plain count name suffix).Ends
      (tokens.get (index + count +
        (name.toList.map Lexeme.name ++ suffix.lexemes).length))) :
    (tokens.get (index + count)).isSymbol "*" = false := by
  cases name with
  | some name => exact noStar_behind shows rfl
  | none =>
      cases suffix with
      | nothing => exact ends.2.2.1
      | array length rest => exact noStar_behind shows rfl
      | function params => exact noStar_behind shows rfl

theorem declarator_reads (closed : setting.Closed)
    (read : ReadsBelow setting depth again) :
    ReadsPhrase setting (depth + 1) (declarator again) := by
  intro phrase state shape base short clear holds shows ends denotes
  refine .of_run (declarator_run again base) (.refl _) ?_
  cases phrase with
  | plain count name suffix =>
      have length : (Phrase.plain count name suffix).lexemes.length =
          count + (name.toList.map Lexeme.name ++ suffix.lexemes).length := by
        rw [Phrase.lexemes, List.length_append, length_stars]
      rw [length, ← Nat.add_assoc] at ends ⊢
      rw [length, List.length_append] at short
      have star : (state.token (state.pos + count)).isSymbol "*" = false :=
        noStar_behind_plain shows ends
      obtain ⟨front, back⟩ := TokenStream.Shows.append shows
      rw [length_stars] at back
      refine .behind (pointers_read front star denotes) fun ty types longer good => ?_
      have rest := @plain_reads setting
        (state.placed (state.pos + count) types) again depth
        closed read (holds.placed longer _) state.pos count name suffix clear back ends
        (by omega) _ ty good
      refine rest.weaken fun more declared _ is => ⟨is.1, ?_, is.2.2⟩
      rw [is.2.1, Phrase.nameOffset, Option.map_map]
      rfl
  | nested count inner suffix =>
      have length : (Phrase.nested count inner suffix).lexemes.length =
          count + (1 + inner.lexemes.length + 1 + suffix.lexemes.length) := by
        simp only [Phrase.lexemes, List.length_append, List.length_cons, length_stars]
        omega
      have stop : state.pos +
          (count + (1 + inner.lexemes.length + 1 + suffix.lexemes.length)) =
          state.pos + count + 1 + inner.lexemes.length + 1 + suffix.lexemes.length := by
        omega
      rw [length, stop] at ends ⊢
      rw [length] at short
      have star : (state.token (state.pos + count)).isSymbol "*" = false :=
        noStar_behind shows rfl
      obtain ⟨front, back⟩ := TokenStream.Shows.append shows
      rw [length_stars] at back
      refine .behind (pointers_read front star denotes) fun ty types longer good => ?_
      have rest := @nested_reads setting (state.placed (state.pos + count) types)
        again depth closed
        read (holds.placed longer _) state.pos inner suffix clear.1 clear.2.1
          clear.2.2 back ends
        (by omega) _ ty good
      refine rest.weaken fun more declared _ is => ⟨is.1, ?_, is.2.2⟩
      rw [is.2.1, Phrase.nameOffset, Option.map_map]
      refine congrArg (inner.nameOffset.map ·) (funext fun offset => ?_)
      change state.pos + count + 1 + offset = state.pos + (count + 1 + offset)
      omega

/-- Productions read whatever has fewer lexemes than they are deep. -/
theorem productions_read (closed : setting.Closed) :
    ∀ depth, ReadsBelow setting depth (productions depth)
  | 0 => ⟨nofun, nofun, nofun⟩
  | depth + 1 => by
      have read := productions_read closed depth
      exact
        { specifiers := fun _ clear holds shows quiet =>
            specifiers_reads closed holds clear shows quiet
          declarator := declarator_reads closed read
          suffix := suffix_reads closed read }

/-- What names stand for in a state, and its types. -/
def Setting.of (state : State) : Setting := ⟨state.scopes, state.program.types⟩

/-- Under the invariant of the parser, names and tags stand for types that are there. -/
theorem Setting.closed_of {tokens : TokenStream} {base : Nat}
    (inv : Inv tokens base state) :
    (Setting.of state).Closed :=
  ⟨inv.types, fun _ _ known => inv.scopes.typedef? known,
    fun _ _ known => inv.scopes.lookupTag? known⟩

theorem reads_of_closed
    (closed : (Setting.of state).Closed)
    {base : TyId}
    (present : state.program.types.Has base)
    {phrase : Phrase}
    (clear : phrase.Clear state.scopes)
    (shows : state.Shows phrase.lexemes)
    (ends : phrase.Ends (state.token (state.pos + phrase.lexemes.length)))
    (deep : phrase.lexemes.length ≤ depth) :
    Settles (declarator (productions depth) base) state
      (state.pos + phrase.lexemes.length) (phrase.Accepts (.of state) (.given base))
      fun types declared => declared.start = state.pos ∧
        declared.name = phrase.nameOffset.map (state.pos + ·) ∧
        (phrase.reading (.of state) (.given base)).Denotes state.program.types
          state.tokens types declared.ty :=
  declarator_reads closed (productions_read closed depth) (Nat.lt_succ_of_le deep) clear
    ⟨rfl, .refl _⟩ shows ends ⟨rfl, present⟩

/-- Whenever the parser succeeds on a declarator before a token that does not continue it,
it stops right behind the declarator and has only entered types, the declared name is the
innermost one, and the declared type has the structure that the declarator makes of the
base type. -/
theorem declarator_makes_its_reading
    {state after : State}
    {base : TyId}
    {phrase : Phrase}
    {depth : Nat}
    {declared : Declarator}
    (closed : (Setting.of state).Closed)
    (present : state.program.types.Has base)
    (clear : phrase.Clear state.scopes)
    (shows : state.Shows phrase.lexemes)
    (ends : phrase.Ends (state.token (state.pos + phrase.lexemes.length)))
    (deep : phrase.lexemes.length ≤ depth)
    (run : declarator (productions depth) base state = .ok declared after) :
    (∃ types, after = state.placed (state.pos + phrase.lexemes.length) types ∧
      state.program.types.Extends types) ∧
    declared.start = state.pos ∧
    declared.name = phrase.nameOffset.map (state.pos + ·) ∧
    Names state.tokens phrase.name declared.name ∧
    (phrase.reading (.of state) (.given base)).Denotes state.program.types state.tokens
      after.program.types declared.ty := by
  obtain ⟨-, types, rfl, longer, start, name, denotes⟩ :=
    (reads_of_closed closed present clear shows ends deep).of_ok run
  refine ⟨⟨types, rfl, longer⟩, start, name, ?_, denotes⟩
  rw [name]
  exact Phrase.names shows

instance (token : Token) (lexeme : Lexeme) : Decidable (token.Is lexeme) :=
  match lexeme with
  | .symbol text =>
      inferInstanceAs
        (Decidable ((token.kind = .punctuator ∨ token.kind = .keyword) ∧
          token.text = text))
  | .name name =>
      inferInstanceAs (Decidable (token.kind = .identifier ∧ token.text = name.text))
  | .number value => inferInstanceAs (Decidable (token.kind = .num value))

instance decidableShows (tokens : TokenStream) :
    ∀ (index : Nat) (lexemes : List Lexeme), Decidable (tokens.Shows index lexemes)
  | _, [] => .isTrue trivial
  | index, lexeme :: rest =>
      have := decidableShows tokens (index + 1) rest
      inferInstanceAs (Decidable (index < tokens.last ∧ (tokens.get index).Is lexeme ∧
        tokens.Shows (index + 1) rest))

/-- The tokens of `(*f[2])(long x[3], T);`, places left out. -/
def callbackTokens : TokenStream :=
  ⟨#[⟨.punctuator, "(", 0, 1⟩, ⟨.punctuator, "*", 0, 1⟩, ⟨.identifier, "f", 0, 1⟩,
      ⟨.punctuator, "[", 0, 1⟩, ⟨.num 2, "2", 0, 1⟩, ⟨.punctuator, "]", 0, 1⟩,
      ⟨.punctuator, ")", 0, 1⟩, ⟨.punctuator, "(", 0, 1⟩, ⟨.keyword, "long", 0, 1⟩,
      ⟨.identifier, "x", 0, 1⟩, ⟨.punctuator, "[", 0, 1⟩, ⟨.num 3, "3", 0, 1⟩,
      ⟨.punctuator, "]", 0, 1⟩, ⟨.punctuator, ",", 0, 1⟩, ⟨.identifier, "T", 0, 1⟩,
      ⟨.punctuator, ")", 0, 1⟩, ⟨.punctuator, ";", 0, 1⟩],
    ⟨.eof, "", 0, 1⟩⟩

/-- The state before them where `T` is a name for `long`. -/
def callbackState : State :=
  { State.initial callbackTokens with
    scopes := Scopes.initial.declareVariable "T" (.typedef .long) }

/-- The name of a function. -/
def functionName : Identifier where
  text := "f"
  ne_empty := by simp
  isWord := by simp
  noDigit := by simp
  notKeyword := by simp [Lexer.keywords]

/-- The name of a parameter. -/
def paramName : Identifier where
  text := "x"
  ne_empty := by simp
  isWord := by simp
  noDigit := by simp
  notKeyword := by simp [Lexer.keywords]

/-- The name for `long`. -/
def longName : Identifier where
  text := "T"
  ne_empty := by simp
  isWord := by simp
  noDigit := by simp
  notKeyword := by simp [Lexer.keywords]

/-- Their declarator. -/
def callbackPhrase : Phrase :=
  .nested 0
    (.plain 1 (some functionName) (.array 2 .nothing))
    (.function (.cons (.words .long [])
      (.plain 0 (some paramName) (.array 3 .nothing))
      (.cons (.typedef longName) (.plain 0 none .nothing) .nil)))

theorem callbackState_closed : (Setting.of callbackState).Closed := by
  refine ⟨initial_types_sound, fun name ty known => ?_, nofun⟩
  by_cases same : name = "T"
  · subst same
    obtain rfl : TyId.long = ty := Option.some.inj known
    exact .of_get? rfl
  · have other : (name == "T") = false := beq_false_of_ne same
    have none : (Setting.of callbackState).scopes.lookupVariable? name = none := by
      change List.findSome? _ [Frame.mk [("T", .typedef .long)] []] = none
      simp only [List.findSome?_cons, List.lookup_cons, other, List.lookup_nil,
        List.findSome?_nil]
    rw [Scopes.typedef?, none] at known
    cases known

/-- An array of pointers to functions, the first parameter of which is a pointer. -/
theorem callback_makes_its_reading :
    ∃ declared after name, declarator (productions 16) .char callbackState =
      .ok declared after ∧ after.pos = 16 ∧ declared.name = some 2 ∧
      (Shape.array (.pointer (.function (.given .char)
        (.cons (some name) (.pointer (.given .long)) (.cons none (.given .long) .nil))))
          2).Denotes
        callbackState.program.types callbackTokens after.program.types declared.ty := by
  have succeeds :
      Succeeds (declarator (productions 16) .char) callbackState := by decide +kernel
  obtain ⟨declared, after, run⟩ := succeeds
  have shows : callbackState.Shows callbackPhrase.lexemes := by
    unfold State.Shows
    decide
  have clear : callbackPhrase.Clear callbackState.scopes :=
    ⟨trivial, trivial, trivial, trivial, rfl, trivial, trivial⟩
  have makes := @declarator_makes_its_reading callbackState after
    .char callbackPhrase 16 declared
    callbackState_closed (.of_get? rfl) clear shows trivial (by decide) run
  obtain ⟨⟨types, rfl, -⟩, -, name, -, denotes⟩ := makes
  exact ⟨declared, _, _, run, rfl, name, denotes⟩

end Declarators
end MiniC
