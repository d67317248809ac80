import MiniC.Proofs.Grammar.Units
import MiniC.Proofs.Precedence.Function

/-!
# Expressions in programs

The tokens of a function that declares variables and evaluates a tree are parsed into a
program that does so, unless the variables need a larger frame than there can be.
-/

namespace MiniC

open Precedence

/-! ## The frame -/

namespace Grammar.LocalsEntered

variable {function : Symbol} {names : List Identifier} {state : State}

theorem symbol?_function (entered : LocalsEntered function names state) :
    state.program.symbol? ⟨0⟩ = some function := by
  rw [Program.symbol?, entered.symbols]
  rfl

/-- The symbols of the locals are those of the variables in order. -/
theorem symbol?_locals (entered : LocalsEntered function names state) :
    (localIds names.length).map state.program.symbol? =
      names.map (some <| localSymbol ·) := by
  apply List.ext_getElem
  · simp [localIds]
  · intro index inside _
    simp only [localIds, List.length_map, List.length_range] at inside
    simp [localIds, Program.symbol?, entered.symbols, List.getElem?_eq_getElem inside]

/-- Each local is a variable without a place. -/
theorem symbol?_of_mem (entered : LocalsEntered function names state) {id : SymbolId}
    (member : id ∈ localIds names.length) :
    ∃ name, state.program.symbol? id = some (localSymbol name) := by
  have inside := List.mem_map_of_mem (f := state.program.symbol?) member
  rw [entered.symbol?_locals] at inside
  obtain ⟨name, -, found⟩ := List.mem_map.mp inside
  exact ⟨name, found.symm⟩

end Grammar.LocalsEntered

/-- So many variables of four bytes lie four bytes apart. -/
theorem Program.extentBelow_replicate (count : Nat) {offset : Int}
    (aligned : 4 ∣ offset) :
    extentBelow (List.replicate count ⟨.int, 4, 4, none⟩) offset =
      offset + 4 * count := by
  induction count generalizing offset with
  | zero => simp [extentBelow]
  | succ count hypothesis =>
      have next : Extent.roundUp (offset + 4) 4 = offset + 4 := by
        unfold Extent.roundUp
        omega
      rw [List.replicate_succ, extentBelow, next, hypothesis (by omega)]
      push_cast
      omega

namespace Grammar.LocalsEntered

variable {function : Symbol} {names : List Identifier} {state : State}

/-- The frame holds four bytes for each variable. -/
theorem frameExtent_eq (entered : LocalsEntered function names state) :
    state.program.frameExtent (localIds names.length) =
      Extent.roundUp (4 * names.length) 16 := by
  have types : (localIds names.length).reverse.filterMap state.program.symbolTy? =
      List.replicate names.length ⟨.int, 4, 4, none⟩ := by
    have each : ∀ id ∈ (localIds names.length).reverse,
        state.program.symbolTy? id = some ⟨.int, 4, 4, none⟩ := by
      intro id member
      obtain ⟨name, found⟩ := entered.symbol?_of_mem (List.mem_reverse.mp member)
      exact Program.symbolTy?_eq_some found entered.int
    rw [List.filterMap_congr each]
    simp [localIds]
  rw [Program.frameExtent, types,
    Program.extentBelow_replicate _ (Int.dvd_zero 4), Int.zero_add]

/-- Laying out the frame of the function gives a program that evaluates the tree, or the
frame is too large. -/
theorem layoutFrame_run (entered : LocalsEntered function names state) {name : Identifier}
    {tree : Tree names} {body : NodeId} (named : function.name = name.text)
    (global : function.isLocal = false)
    (isBody : state.program.IsBody (localIds names.length) tree body) (tok : Nat) :
    let due : State :=
      { state with
        function := none
        program := state.program.setSymbolKind ⟨0⟩
          (.function ⟨[], localIds names.length, some body, 0⟩) }
    if Extent.roundUp (4 * names.length) 16 ≤ Extent.maxInt32 then
      ∃ program, layoutFrame ⟨0⟩ tok due = .ok () { due with program := program } ∧
        program.Evaluates name tree
    else
      layoutFrame ⟨0⟩ tok due =
        .error (.rejected (.typing .frameTooLarge) (state.token tok).loc) due := by
  intro due
  have ruled : ∀ id ∈ localIds names.length, state.program.LocalRule id := by
    intro id member
    obtain ⟨local', found⟩ := entered.symbol?_of_mem member
    exact ⟨_, _, found, entered.int, by decide, by decide, by decide⟩
  have unplaced : ∀ id ∈ localIds names.length, ∃ entry,
      state.program.symbol? id = some entry ∧
      entry.kind = .localVar none := by
    intro id member
    obtain ⟨local', found⟩ := entered.symbol?_of_mem member
    exact ⟨_, found, rfl⟩
  have nodup : (localIds names.length).Nodup := by
    refine List.Nodup.map ?_ List.nodup_range
    intro one other same
    simpa using same
  have laid : Program.OverflowsOr (Program.layoutFrame ⟨0⟩) due.program _ _ :=
    @Program.layoutFrame_overflowsOr _ _ _ entered.symbol?_function global
      ⟨[], localIds names.length, some body, 0⟩ ruled unplaced nodup
  rw [entered.frameExtent_eq] at laid
  rcases layoutFrame_cases laid tok with ⟨beyond, rejected⟩ | ⟨new, reached, defined⟩
  · rw [if_neg (Int.not_le.mpr beyond)]
    exact rejected
  · have small : Extent.roundUp (4 * names.length) 16 ≤ Extent.maxInt32 :=
      defined.frame.size_le
    rw [if_pos small]
    let laidOut : Function :=
      ⟨[], localIds names.length, some body, Extent.roundUp (4 * names.length) 16⟩
    have kept : new.IsBody (localIds names.length) tree body :=
      (defined.keeps 0).toGrows.isBody defined.nodes isBody
    refine ⟨new, reached, ⟨{ function with kind := .function laidOut }, laidOut, body⟩,
      ?_, named, rfl, ?_, kept⟩
    · have listed : new.globals = #[⟨0⟩] := defined.globals.trans entered.globals
      rw [Program.definitions, listed]
      simp [Program.definition?, defined.own, Symbol.function?, laidOut]
    · have places : (localIds names.length).map
          (fun id => (new.symbol? id).map (·.name)) =
          (localIds names.length).map fun id => (state.program.symbol? id).map
            (·.name) := by
        refine List.map_congr_left fun id member => ?_
        obtain ⟨entry, place, before, -, now⟩ := defined.locals id member
        rw [before, now]
        rfl
      have each := congrArg (List.map (Option.map (·.name))) entered.symbol?_locals
      rw [List.map_map, List.map_map] at each
      exact places.trans each

end Grammar.LocalsEntered

/-! ## The head of the function -/

namespace Grammar

variable {tokens : TokenStream} {again : Productions} {name : Identifier}
    {rest : List Lexeme}

/-- The symbol of a function that has no body yet. -/
def functionSymbol (name : Identifier) : Symbol :=
  ⟨name.text, ⟨6⟩, false, .function ⟨[], [], none, 0⟩⟩

/-- The state behind the head of a function that begins a file. -/
def State.behindHead (tokens : TokenStream) (name : Identifier) : State where
  tokens := tokens
  pos := 4
  scopes := Scopes.initial.declareVariable name.text (.object ⟨0⟩)
  program := ⟨(TypeTable.initial.function .int []).2, #[], #[functionSymbol name], #[⟨0⟩]⟩
  function := none
  literals := 0

theorem State.noTypedef_initial (tokens : TokenStream) :
    (State.initial tokens).NoTypedef :=
  fun _ _ found => nomatch found

theorem State.noTypedef_behindHead (tokens : TokenStream) (name : Identifier) :
    (State.behindHead tokens name).NoTypedef := by
  intro other ty
  change (Scopes.initial.declareVariable _ _).lookupVariable? other ≠ _
  rw [Scopes.lookupVariable?_declareVariable]
  split
  · simp
  · exact State.noTypedef_initial tokens other ty

/-- The head of a function declares it, and its body follows. -/
theorem fileDeclaration_run
    (shows : (State.initial tokens).Shows (.symbol "int" :: .name name :: .symbol "(" ::
      .symbol ")" :: .symbol openBrace :: rest)) :
    fileDeclaration again (.initial tokens) =
      functionDefinition again ⟨0⟩ .int [] 1 (.behindHead tokens name) := by
  let opened : State := (State.initial tokens).next.next
  let typed : State :=
    { opened.next.next with
      program := { Program.empty with types := (TypeTable.initial.function .int []).2 } }
  have opening : opened.sees "(" = true := shows.next.next.sees
  have closing : opened.next.sees ")" = true := shows.next.next.next.sees
  have listed : iterate [] (fun params => do
      if ← accept ")" then
        return .done params
      else
        unless params.isEmpty do
          expect ","
        return .again (params ++ [← parameter again]) : List Param -> Parser (Round _ _))
      opened.next = .ok [] opened.next.next := iterate_done (accept_then closing)
  have noVoid : opened.next.sees "void" = false := State.sees_eq_false closing (by decide)
  have suffixed : suffix again .int opened = .ok ⟨6⟩ typed := by
    unfold suffix
    rw [accept_then opening]
    unfold parameters
    rw [get_run, if_neg (by simp [noVoid]), bind_run listed]
    rfl
  have declared :
      declarator again .int (State.initial tokens).next = .ok ⟨⟨6⟩, some 1, 1⟩ typed :=
    declarator_of_name shows.next suffixed
  have entry : typed.program.lookupTy ⟨6⟩ = .ok ⟨.func .int [], 1, 1, none⟩ := rfl
  have result : typed.program.lookupTy .int = .ok ⟨.int, 4, 4, none⟩ := rfl
  have signed : signature ⟨6⟩ 1 typed = .ok (.int, []) typed := by
    unfold signature
    refine (query_run entry).trans ?_
    refine (query_run result).trans ?_
    rfl
  have text : (typed.token 1).text = name.text := shows.next.current.2
  have entered : newFunction (typed.token 1).text ⟨6⟩ false typed =
      .ok ⟨0⟩ (.behindHead tokens name) := by
    rw [text]
    rfl
  have noSemicolon : (State.behindHead tokens name).sees ";" = false :=
    shows.next.next.next.next.sees_eq_false (by decide)
  unfold fileDeclaration
  rw [bind_run (specifiers_int true (State.noTypedef_initial tokens) shows)]
  change (do unless ← accept ";" do _ : Parser Unit) _ = _
  rw [bind_run (accept_of_not_sees (shows.next.sees_eq_false rfl))]
  refine (bind_run declared).trans ?_
  refine (query_run entry).trans ?_
  unfold function
  refine (bind_run (requireName_run _ _ _)).trans ?_
  refine (bind_run signed).trans ?_
  refine (get_run _).trans ?_
  refine (bind_run entered).trans ?_
  exact bind_run (accept_of_not_sees noSemicolon)

end Grammar

/-! ## The file -/

/-- The tokens are written as some lexemes, and nothing else. -/
structure TokenStream.Spells (tokens : TokenStream) (lexemes : List Lexeme) : Prop where
  shows : tokens.Shows 0 lexemes
  last : tokens.last = lexemes.length
  eof : tokens.eof.kind = .eof

theorem length_definition {names : List Identifier} (function : Identifier)
    (tree : Tree names) :
    (definition function tree).length =
      4 + 1 + (names.flatMap Precedence.declaration).length +
        (tree.print 0).length + 2 := by
  simp only [definition, List.length_append, List.length_cons, List.length_nil]
  omega

namespace Grammar

variable {again : Productions} {state after : State}

/-- A file that holds one declaration. -/
theorem unit_of_declaration (some : state.current.isEof = false)
    (declared : fileDeclaration again state = .ok () after)
    (ends : after.current.isEof = true) : unit again state = .ok () after := by
  have round : unitRound again () state = .ok (.again ()) after := by
    rw [unitRound_run some]
    exact bind_run declared
  exact iterate_again_done () after round (unitRound_of_eof ends)

/-- A file whose first declaration is rejected. -/
theorem unit_of_rejected {error : Error} (some : state.current.isEof = false)
    (rejected : fileDeclaration again state = .error error after) :
    unit again state = .error error after := by
  have round : unitRound again () state = .error error after := by
    rw [unitRound_run some]
    exact bind_fail rejected
  rw [unit_run, State.rounds, iterateFor, bind_fail round]

end Grammar

open Grammar in
/-- A function that declares variables and evaluates a tree is parsed into a program that
does so, unless the variables do not fit into a frame. -/
theorem parse_definition {tokens : TokenStream} {function : Identifier}
    {names : List Identifier} {tree : Tree names}
    (spells : tokens.Spells (definition function tree)) :
    if Extent.roundUp (4 * names.length) 16 ≤ Extent.maxInt32 then
      ∃ program, parse tokens = .ok program ∧ program.Evaluates function tree
    else
      parse tokens = .error (.rejected (.typing .frameTooLarge) (tokens.get 1).loc) := by
  have shows : (State.initial tokens).Shows (definition function tree) := spells.shows
  have length := spells.last.trans (length_definition function tree)
  have long : (tree.print 0).length ≤ tokens.last + 1 := by omega
  obtain ⟨body, middle, entered, isBody, same, reached, run⟩ :=
    functionDefinition_run rfl rfl rfl rfl
      (State.noTypedef_behindHead tokens function) long shows.next.next.next.next ⟨0⟩ 1
  have declared := (fileDeclaration_run shows).trans run
  have some := shows.isEof_eq_false (List.cons_ne_nil _ _)
  have laid := entered.layoutFrame_run rfl rfl isBody 1
  unfold parse
  split at laid
  · rename_i small
    obtain ⟨program, reachedFrame, evaluates⟩ := laid
    have ends : middle.current.isEof = true := by
      have last : middle.pos = tokens.last := reached.trans length.symm
      rw [State.current, State.token, same, last, Token.isEof]
      change ((tokens.get tokens.last).kind == .eof) = true
      rw [tokens.get_of_last_le (Nat.le_refl _), spells.eof]
      rfl
    rw [if_pos small, unit_of_declaration some (declared.trans reachedFrame) ends]
    exact ⟨program, rfl, evaluates⟩
  · rename_i large
    rw [if_neg large, unit_of_rejected some (declared.trans laid), State.token, same]
    rfl

end MiniC
