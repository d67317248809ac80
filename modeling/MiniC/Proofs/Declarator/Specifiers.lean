import MiniC.Proofs.Declarator.Settles

/-!
# Reading the specifiers of a parameter

Words are taken as long as together they spell a type, so all of them are read exactly if
they spell one: what is left of a spelling without a word is a spelling again.  A named
type stands alone.  In both cases a name behind the specifiers is left alone, even if it
names a type.
-/

namespace MiniC
namespace Declarators

open Precedence Grammar

/-! ## Spellings -/

theorem ofText?_wordText (word : TypeWord) :
    TypeWord.ofText? (wordText word) = some word := by
  cases word <;> rfl

/-- Words spell a type exactly if one of the spellings has them in some order. -/
theorem isSome_spelled?_iff {words : List TypeWord} :
    (TypeWord.spelled? words).isSome ↔
      ∃ spelling ∈ TypeWord.spellings, spelling.1.Perm words := by
  unfold TypeWord.spelled?
  rw [Option.isSome_map, List.find?_isSome]
  simp only [List.isPerm_iff]

/-- The order of words does not matter. -/
theorem spelled?_eq_of_perm {words others : List TypeWord} (order : words.Perm others) :
    TypeWord.spelled? words = TypeWord.spelled? others := by
  unfold TypeWord.spelled?
  congr 2
  funext spelling
  rw [Bool.eq_iff_iff, List.isPerm_iff, List.isPerm_iff]
  exact ⟨fun same => same.trans order, fun same => same.trans order.symm⟩

/-- Without one of them, words that spell a type spell a type or are none. -/
theorem isSome_spelled?_of_cons {word : TypeWord} {words : List TypeWord}
    (some : words ≠ []) (spells : (TypeWord.spelled? (word :: words)).isSome) :
    (TypeWord.spelled? words).isSome := by
  obtain ⟨spelling, listed, order⟩ := isSome_spelled?_iff.mp spells
  have member : word ∈ spelling.1 := order.mem_iff.mpr List.mem_cons_self
  have rest : (spelling.1.erase word).Perm words := by
    have erased := order.erase word
    rwa [List.erase_cons_head] at erased
  -- Of the spellings none is left incomplete by taking a word away.
  have closed : ∀ spelling ∈ TypeWord.spellings, ∀ word ∈ spelling.1,
      spelling.1.erase word = [] ∨
      (TypeWord.spelled? (spelling.1.erase word)).isSome := by
    decide
  rcases closed spelling listed word member with none | known
  · rw [none] at rest
    exact absurd rest.nil_eq.symm some
  · rwa [spelled?_eq_of_perm rest] at known

/-- The last of words that spell a type spell a type or are none. -/
theorem isSome_spelled?_of_append {front back : List TypeWord} (some : back ≠ [])
    (spells : (TypeWord.spelled? (front ++ back)).isSome) :
    (TypeWord.spelled? back).isSome := by
  induction front with
  | nil => exact spells
  | cons word front hypothesis =>
      exact hypothesis (isSome_spelled?_of_cons (by simp [some]) spells)

/-- The types of words are there from the beginning. -/
theorem exists_of_spelled? {words : List TypeWord} {id : TyId}
    (spells : TypeWord.spelled? words = some id) :
    ∃ ty, TypeTable.initial.get? id = some ty := by
  have known : ∀ spelling ∈ TypeWord.spellings,
      (TypeTable.initial.get? spelling.2).isSome := by decide
  obtain ⟨spelling, found, rfl⟩ := Option.map_eq_some_iff.mp spells
  exact Option.isSome_iff_exists.mp (known spelling (List.mem_of_find?_eq_some found))

/-! ## One round -/

variable {again : Productions} {allowed : Bool} {seen : Specifiers} {state : State}
  {rest : List Lexeme}

/-- One round of the loop over specifiers. -/
def specifierRound (again : Productions) (allowed : Bool) (seen : Specifiers) :
    Parser (Round Specifiers (TyId × Storage)) := do
  let state ← get
  if !state.startsType state.pos then
    return .done (seen.ty, seen.storage)
  else if state.sees "typedef" || state.sees "static" then
    let storage ← storageClass allowed seen.storage
    return .again { seen with storage := storage }
  else
    let typedef := state.typedefAt? state.pos
    if state.sees "struct" || state.sees "union" || state.sees "enum"
        || typedef.isSome then
      if seen.namesType then
        return .done (seen.ty, seen.storage)
      else
        return .again (seen.addNamed (← namedTy again typedef))
    else
      return .again (← typeWord seen)

theorem specifiers_run (again : Productions) (allowed : Bool) (state : State) :
    specifiers again allowed state =
      iterateFor (specifierRound again allowed) state.rounds .none state := rfl

/-- A token that neither belongs to specifiers nor opens a body. -/
def Quiet (token : Token) : Prop :=
  ∀ symbol ∈ openBrace :: State.typeKeywords, token.isSymbol symbol = false

/-- Specifiers end before a token that does not belong to them. -/
theorem round_ends (quiet : Quiet state.current) (named : seen.namesType = true) :
    specifierRound again allowed seen state =
      .ok (.done (seen.ty, seen.storage)) state := by
  have absent {symbol : String} (keyword : symbol ∈ State.typeKeywords) :
      state.sees symbol = false := quiet symbol (List.mem_cons_of_mem _ keyword)
  have starts : state.startsType state.pos = (state.typedefAt? state.pos).isSome := by
    have none : State.typeKeywords.any (state.seesAt state.pos) = false := by
      rw [List.any_eq_false]
      exact fun symbol keyword => Bool.eq_false_iff.mp (absent keyword)
    rw [State.startsType, none, Bool.false_or]
  unfold specifierRound
  rw [get_run, starts]
  cases state.typedefAt? state.pos with
  | none => rfl
  | some ty =>
      rw [if_neg (by simp),
        if_neg (by simp [absent (show "typedef" ∈ State.typeKeywords by decide),
          absent (show "static" ∈ State.typeKeywords by decide)]),
        if_pos (by simp), if_pos named]
      rfl

/-- A symbol at the cursor is no name. -/
theorem isIdentifier_of_symbol {text : String}
    (shows : state.Shows (.symbol text :: rest)) :
    state.current.isIdentifier = false := by
  obtain ⟨kind | kind, -⟩ := shows.current
  · rw [Token.isIdentifier, kind]
    rfl
  · rw [Token.isIdentifier, kind]
    rfl

theorem isIdentifier_of_name {name : Identifier}
    (shows : state.Shows (.name name :: rest)) :
    state.current.isIdentifier = true := by
  rw [Token.isIdentifier, shows.current.1]
  rfl

theorem typedefAt?_eq_none {index : Nat}
    (noName : (state.token index).isIdentifier = false) :
    state.typedefAt? index = none := by
  simp [State.typedefAt?, noName]

theorem startsType_of_sees {symbol : String} (keyword : symbol ∈ State.typeKeywords)
    (here : state.sees symbol = true) : state.startsType state.pos = true := by
  have any : State.typeKeywords.any (state.seesAt state.pos) = true :=
    List.any_eq_true.mpr ⟨symbol, keyword, here⟩
  rw [State.startsType, any, Bool.true_or]

/-- A word at the cursor is added to those before it. -/
theorem round_word {word : TypeWord}
    (shows : state.Shows (.symbol (wordText word) :: rest)) :
    specifierRound again allowed seen state = (do return .again (← typeWord seen) :
      Parser (Round Specifiers (TyId × Storage))) state := by
  have other : ∀ symbol ∈ ["typedef", "static", "struct", "union", "enum"],
      wordText word ≠ symbol := by cases word <;> decide
  have absent {symbol : String}
      (listed : symbol ∈ ["typedef", "static", "struct", "union", "enum"]) :
      state.sees symbol = false := State.sees_eq_false shows.sees (other symbol listed)
  have starts : state.startsType state.pos = true :=
    startsType_of_sees (by cases word <;> decide) shows.sees
  have noName : state.typedefAt? state.pos = none :=
    typedefAt?_eq_none (isIdentifier_of_symbol shows)
  unfold specifierRound
  rw [get_run, if_neg (by simp [starts]), if_neg (by simp [absent]), noName,
    if_neg (by simp [absent])]

theorem typeWord_run {word : TypeWord}
    (shows : state.Shows (.symbol (wordText word) :: rest)) :
    typeWord seen state =
      match seen.addWord? word with
      | none => failHere (.grammar .invalidType) state
      | some extended => .ok extended state.next := by
  have text : state.current.text = wordText word := shows.current.2
  unfold typeWord
  rw [get_run, text, ofText?_wordText]
  change (match seen.addWord? word with
    | none => _
    | some extended => _ : Parser Specifiers) state = _
  cases seen.addWord? word with
  | none => rfl
  | some extended =>
      change (advance >>= _) state = _
      rw [bind_run shows.advance_run]
      rfl

/-! ## Words -/

/-- Words behind others are read if together they spell a type. -/
theorem words_reads
    {more : List TypeWord}
    {bound : Nat}
    (shows : state.Shows (more.map fun word => .symbol (wordText word)))
    (quiet : Quiet (state.token (state.pos + more.length)))
    (enough : more.length < bound)
    (plain : seen.hasNamed = false)
    (spelled : more = [] -> TypeWord.spelled? seen.words = some seen.ty) :
    Settles (iterateFor (specifierRound again allowed) bound seen) state
      (state.pos + more.length) (TypeWord.spelled? (more.reverse ++ seen.words)).isSome
      fun _ result => TypeWord.spelled? (more.reverse ++ seen.words) = some result.1 := by
  induction more generalizing state seen bound with
  | nil =>
      obtain ⟨bound, rfl⟩ := Nat.exists_eq_succ_of_ne_zero (Nat.ne_of_gt enough)
      have spells := spelled rfl
      have named : seen.namesType = true := by
        have some : seen.words ≠ [] := fun none => by
          rw [none] at spells
          cases spells
        simp [Specifiers.namesType, some]
      exact .inl ⟨by simp [spells], _, state.program.types,
        iterateFor_done (round_ends quiet named) bound, .refl _, spells⟩
  | cons word more hypothesis =>
      obtain ⟨bound, rfl⟩ :=
        Nat.exists_eq_succ_of_ne_zero (Nat.ne_of_gt (Nat.zero_lt_of_lt enough))
      rw [List.reverse_cons, List.append_assoc, List.singleton_append]
      have step : seen.addWord? word =
          (TypeWord.spelled? (word :: seen.words)).map fun ty =>
          { seen with ty := ty, words := word :: seen.words } := by
        rw [Specifiers.addWord?, plain]
        rfl
      have added : typeWord seen state = _ := typeWord_run shows
      rw [step] at added
      cases known : TypeWord.spelled? (word :: seen.words) with
      | none =>
          rw [known] at added
          have failed : specifierRound again allowed seen state = _ :=
            (round_word shows).trans (bind_fail added)
          refine (Settles.fails (bind_fail failed)).iff
            (iff_of_false not_false fun spells => ?_)
          have inner := isSome_spelled?_of_append (List.cons_ne_nil _ _) spells
          rw [known] at inner
          cases inner
      | some ty =>
          rw [known] at added
          have goes : specifierRound again allowed seen state = _ :=
            (round_word shows).trans (bind_run added)
          refine .of_run (iterateFor_again goes bound) (.refl _) ?_
          rw [List.length_cons, ← Nat.add_assoc, Nat.add_right_comm] at quiet ⊢
          exact hypothesis shows.next quiet (Nat.lt_of_succ_lt_succ enough) plain
            fun _ => known

/-! ## Named types -/

/-- The types that names and tags stand for are there. -/
structure Setting.Closed (setting : Setting) : Prop where
  sound : setting.types.Sound
  typedefs : ∀ name ty, setting.scopes.typedef? name = some ty -> setting.types.Has ty
  tags : ∀ tag ty, setting.scopes.lookupTag? tag = some ty -> setting.types.Has ty

/-- A state in which a declarator is read in a setting. -/
structure Setting.Holds (setting : Setting) (state : State) : Prop where
  scopes : state.scopes = setting.scopes
  longer : setting.types.Extends state.program.types

theorem Setting.Holds.placed {setting : Setting} {types : TypeTable}
    (holds : setting.Holds state)
    (longer : state.program.types.Extends types) (pos : Nat) :
    setting.Holds (state.placed pos types) :=
  ⟨holds.scopes, holds.longer.trans longer⟩

/-- A named type is read alone. -/
theorem named_reads
    {id : TyId}
    {middle : State}
    {bound : Nat}
    (goes : specifierRound again allowed .none state =
      .ok (.again (Specifiers.none.addNamed id)) middle)
    (quiet : Quiet middle.current) :
    iterateFor (specifierRound again allowed) (bound + 2) .none state =
      .ok (id, ⟨false, false⟩) middle :=
  (iterateFor_again goes (bound + 1)).trans (iterateFor_done (round_ends quiet rfl) bound)

theorem round_typedef {name : Identifier} {id : TyId}
    (shows : state.Shows (.name name :: rest))
    (named : state.scopes.typedef? name.text = some id) :
    specifierRound again allowed .none state =
      .ok (.again (Specifiers.none.addNamed id)) state.next := by
  have absent (symbol : String) : state.sees symbol = false := shows.sees_eq_false rfl
  have typedef : state.typedefAt? state.pos = some id := by
    have identifier : (state.token state.pos).isIdentifier = true :=
      isIdentifier_of_name shows
    have text : (state.token state.pos).text = name.text := shows.current.2
    simp only [State.typedefAt?, identifier, if_true, text, named]
  have starts : state.startsType state.pos = true := by simp [State.startsType, typedef]
  have read : namedTy again (some id) state = .ok id state.next := by
    unfold namedTy
    rw [accept_else (absent _), accept_else (absent _), accept_else (absent _),
      bind_run shows.advance_run]
    rfl
  unfold specifierRound
  rw [get_run, if_neg (by simp [starts]), if_neg (by simp [absent]), typedef,
    if_pos (by simp), if_neg (by simp [Specifiers.namesType, Specifiers.none]),
      bind_run read]
  rfl

/-- The error for a tag that stands for no type that its keyword may refer to. -/
def TagKeyword.unknown : TagKeyword -> NamingError
  | struct => .unknownStruct
  | union => .unknownUnion
  | enum => .unknownEnum

/-- The type that a tag behind a keyword stands for. -/
def taggedTy (keyword : TagKeyword) (tag : String) (tok : Nat) : Parser TyId := do
  match (← get).scopes.lookupTag? tag with
  | none => failAt tok (.naming keyword.unknown)
  | some ty =>
      if keyword.refersTo (← lookupTy ty) then
        return ty
      else
        failAt tok (.naming keyword.unknown)

theorem taggedAggregate_struct : taggedAggregate .struct = taggedTy .struct := rfl

theorem taggedAggregate_union : taggedAggregate .union = taggedTy .union := rfl

theorem taggedEnum_eq : taggedEnum = taggedTy .enum := rfl

/-- A keyword and the tag behind it, if no body follows. -/
theorem namedTy_reference {keyword : TagKeyword} {typedef : Option TyId}
    (here : state.sees keyword.text = true)
    (named : state.next.current.isIdentifier = true)
    (noBody : state.next.next.sees openBrace = false) :
    namedTy again typedef state =
      taggedTy keyword state.next.current.text state.next.pos state.next.next := by
  have aggregate_ (form : Form) : aggregate again form state.next =
      taggedAggregate form state.next.current.text state.next.pos state.next.next := by
    unfold aggregate
    rw [bind_run (identifier?_run named), get_run, noBody]
  have enumeration_ : enumeration state.next =
      taggedEnum state.next.current.text state.next.pos state.next.next := by
    unfold enumeration
    rw [bind_run (identifier?_run named), get_run, noBody]
  have absent {symbol : String} (other : keyword.text ≠ symbol) :
      state.sees symbol = false :=
    State.sees_eq_false here other
  unfold namedTy
  cases keyword with
  | struct =>
      change state.sees "struct" = true at here
      rw [accept_then here, aggregate_, taggedAggregate_struct]
  | union =>
      change state.sees "union" = true at here
      rw [accept_else (absent (by decide)), accept_then here, aggregate_,
        taggedAggregate_union]
  | enum =>
      change state.sees "enum" = true at here
      rw [accept_else (absent (by decide)), accept_else (absent (by decide)),
        accept_then here, enumeration_, taggedEnum_eq]

/-- The production behind the keyword of a tag that no body follows. -/
theorem namedTy_tagged {keyword : TagKeyword} {tag : Identifier}
    (shows : state.Shows (.symbol keyword.text :: .name tag :: rest))
    (noBody : state.next.next.sees openBrace = false) :
    namedTy again none state =
      taggedTy keyword tag.text state.next.pos state.next.next := by
  rw [namedTy_reference shows.sees (isIdentifier_of_name shows.next) noBody,
    show state.next.current.text = tag.text from shows.next.current.2]

theorem round_tagged {keyword : TagKeyword} {tag : Identifier}
    (shows : state.Shows (.symbol keyword.text :: .name tag :: rest))
    (noBody : state.next.next.sees openBrace = false) :
    specifierRound again allowed .none state = (do
      return .again (Specifiers.none.addNamed
        (← taggedTy keyword tag.text state.next.pos)) :
        Parser (Round Specifiers (TyId × Storage))) state.next.next := by
  have here : state.sees keyword.text = true := shows.sees
  have starts : state.startsType state.pos = true :=
    startsType_of_sees (by cases keyword <;> decide) here
  have noName : state.typedefAt? state.pos = none :=
    typedefAt?_eq_none (isIdentifier_of_symbol shows)
  have kind :
      (state.sees "struct" || state.sees "union" || state.sees "enum") = true := by
    cases keyword with
    | struct => simp [show state.sees "struct" = true from here]
    | union => simp [show state.sees "union" = true from here]
    | enum => simp [show state.sees "enum" = true from here]
  have noStorage : (state.sees "typedef" || state.sees "static") = false := by
    rw [State.sees_eq_false here (by cases keyword <;> decide),
      State.sees_eq_false here (by cases keyword <;> decide)]
    rfl
  unfold specifierRound
  rw [get_run, if_neg (by simp [starts]), if_neg (by simp [noStorage]), noName,
    if_pos (by simp [kind]), if_neg (by simp [Specifiers.namesType, Specifiers.none])]
  change EStateM.bind _ _ state = EStateM.bind _ _ state.next.next
  unfold EStateM.bind
  rw [namedTy_tagged shows noBody]

/-- A tag is read if it stands for a type that its keyword may refer to. -/
theorem taggedTy_reads
    {setting : Setting}
    (closed : setting.Closed)
    (holds : setting.Holds state)
    (keyword : TagKeyword)
    (tag : Identifier)
    (tok : Nat) :
    Settles (taggedTy keyword tag.text tok) state state.pos
      ((Specifier.tagged keyword tag).ty? setting).isSome
      fun _ id => (Specifier.tagged keyword tag).ty? setting = some id := by
  have run : taggedTy keyword tag.text tok state =
      (match setting.scopes.lookupTag? tag.text with
        | none => failAt tok (.naming keyword.unknown)
        | some ty => do
            if keyword.refersTo (← lookupTy ty) then
              return ty
            else
              failAt tok (.naming keyword.unknown) : Parser TyId) state := by
    rw [← holds.scopes]
    rfl
  simp only [Specifier.ty?]
  cases known : setting.scopes.lookupTag? tag.text with
  | none =>
      rw [known] at run
      exact (Settles.fails run).iff (by simp)
  | some id =>
      obtain ⟨ty, found⟩ := TypeTable.has_iff.mp (closed.tags _ id known)
      rw [known] at run
      have entry : lookupTy id state = .ok ty state :=
        lookupTy_run (holds.longer _ _ found)
      have run := run.trans (bind_run entry)
      cases refers : keyword.refersTo ty with
      | true =>
          rw [if_pos refers] at run
          exact .inl ⟨by simp [Option.filter, found, refers], id,
            state.program.types, run, .refl _, by simp [Option.filter, found, refers]⟩
      | false =>
          rw [if_neg (by simp [refers])] at run
          exact (Settles.fails run).iff (by simp [Option.filter, found, refers])

/-! ## All specifiers -/

/-- The structure that specifiers name is that of the type they name. -/
theorem Specifier.denotes
    {setting : Setting}
    (closed : setting.Closed)
    {specifier : Specifier}
    {id : TyId}
    (named : specifier.ty? setting = some id)
    (tokens : TokenStream)
    (types : TypeTable) :
    (specifier.shape setting).Denotes setting.types tokens types id := by
  rw [Specifier.shape, named]
  refine ⟨rfl, ?_⟩
  cases specifier with
  | words first more =>
      obtain ⟨ty, found⟩ := exists_of_spelled? named
      exact .of_get? (closed.sound.primitives id ty found)
  | typedef name => exact closed.typedefs _ id named
  | tagged keyword tag => exact closed.tags _ id (Option.eq_some_of_filter_eq_some named)

/-- Specifiers are read up to a token that does not belong to them, if they name a
type. -/
theorem specifiers_reads
    {setting : Setting}
    (closed : setting.Closed)
    (holds : setting.Holds state)
    {specifier : Specifier}
    (clear : specifier.Clear setting.scopes)
    (shows : state.Shows specifier.lexemes)
    (quiet : Quiet (state.token (state.pos + specifier.lexemes.length))) :
    Settles (specifiers again allowed) state (state.pos + specifier.lexemes.length)
      (specifier.ty? setting).isSome
      fun types result => (specifier.shape setting).Denotes setting.types
        state.tokens types result.1 := by
  refine .of_run (specifiers_run again allowed state) (.refl _) ?_
  cases specifier with
  | words first more =>
      have length :
          (Specifier.words first more).lexemes.length = (first :: more).length :=
        List.length_map ..
      have order : (first :: more).reverse ++ [] = (first :: more).reverse :=
        List.append_nil _
      have reads :
          Settles (iterateFor (specifierRound again allowed) state.rounds .none)
            state _ _ _ :=
        words_reads shows (by rwa [length] at quiet)
          (Nat.lt_of_le_of_lt (length ▸ shows.length_le)
            (by unfold State.rounds; omega)) rfl nofun
      rw [length]
      have spells : TypeWord.spelled? ((first :: more).reverse ++ Specifiers.none.words) =
          (Specifier.words first more).ty? setting := by
        change TypeWord.spelled? ((first :: more).reverse ++ []) = _
        rw [order]
        exact spelled?_eq_of_perm (List.reverse_perm _)
      rw [spells] at reads
      exact reads.weaken
        fun types result _ named => Specifier.denotes closed named _ types
  | typedef name =>
      obtain ⟨id, named⟩ := Option.isSome_iff_exists.mp clear
      have here : state.scopes.typedef? name.text = some id := by
        rw [holds.scopes, named]
      refine .inl ⟨clear, _, state.program.types,
        named_reads (round_typedef shows here) quiet, .refl _, ?_⟩
      exact @Specifier.denotes setting closed (.typedef name) id named _ _
  | tagged keyword tag =>
      have noBody : state.next.next.sees openBrace = false :=
        quiet openBrace List.mem_cons_self
      have round : specifierRound again allowed .none state = _ :=
        round_tagged shows noBody
      have tagged := @taggedTy_reads state.next.next setting closed
        ⟨holds.scopes, holds.longer⟩ keyword tag state.next.pos
      rcases tagged with ⟨refers, id, types, run, extends_, named⟩ | ⟨not, error,
        after, failed⟩
      · refine .inl ⟨refers, (id, ⟨false, false⟩), types, ?_, extends_, ?_⟩
        · exact named_reads (round.trans (bind_run run)) quiet
        · exact Specifier.denotes closed named _ types
      · exact .inr ⟨not, error, after, bind_fail (round.trans (bind_fail failed))⟩

end Declarators
end MiniC
