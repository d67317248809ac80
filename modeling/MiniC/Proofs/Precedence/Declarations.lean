import MiniC.Proofs.Precedence.Expression

/-!
# Declaring variables

`Declaring` describes the parser inside a function, behind the declarations of some
variables of type `int`: each name stands for a symbol of its own, and each declaration
has left an empty block.  One more declaration leads to such a state again.
-/

namespace MiniC

open Precedence

/-- A new name stands for what it was declared as, and hides no other. -/
theorem Scopes.lookupVariable?_declareVariable (scopes : Scopes) (name other : String)
    (binding : Binding) :
    (scopes.declareVariable name binding).lookupVariable? other =
      if other = name then some binding else scopes.lookupVariable? other := by
  split
  · rename_i same
    rw [same]
    exact scopes.lookupVariable?_declareVariable_self name binding
  · rename_i different
    have missed (frame : Frame) : (frame.declareVariable name binding).vars.lookup other =
        frame.vars.lookup other := by
      have other' : (other == name) = false := beq_eq_false_iff_ne.mpr different
      simp [Frame.declareVariable, List.lookup_cons, other']
    obtain ⟨file, blocks⟩ := scopes
    cases blocks with
    | nil =>
        simp [declareVariable, modifyInnermost, lookupVariable?, frames, missed]
    | cons block outer =>
        simp [declareVariable, modifyInnermost, lookupVariable?, frames, missed,
          List.findSome?_cons]

namespace Grammar

variable {again : Productions} {state after : State} {name : Identifier}
    {rest : List Lexeme} {next : String}

/-! ## Specifiers and declarators -/

theorem startsType_of_int (shows : state.Shows (.symbol "int" :: rest)) :
    state.startsType state.pos = true := by
  have here : state.seesAt state.pos "int" = true := shows.sees
  simp [State.startsType, State.typeKeywords, here]

/-- The specifier `int` before a name. -/
theorem specifiers_int (allowed : Bool) (clean : state.NoTypedef)
    (shows : state.Shows (.symbol "int" :: .name name :: rest)) :
    specifiers again allowed state = .ok (.int, ⟨false, false⟩) state.next := by
  have absent {symbol : String} (other : "int" ≠ symbol) : state.sees symbol = false :=
    State.sees_eq_false shows.sees other
  have text : state.current.text = "int" := shows.current.2
  have word :
      typeWord .none state = .ok ⟨.int, [.int], false, ⟨false, false⟩⟩ state.next := by
    unfold typeWord
    rw [get_run, text]
    change (advance >>= _) state = _
    rw [bind_run shows.advance_run]
    rfl
  have cleanThen : state.next.NoTypedef := clean
  have ends : state.next.startsType state.next.pos = false :=
    cleanThen.startsType_eq_false fun keyword _ => shows.next.sees_eq_false rfl
  refine iterate_again_done ⟨.int, [.int], false, ⟨false, false⟩⟩ state.next ?_ ?_
  · rw [get_run, if_neg (by simp [startsType_of_int shows]),
      if_neg (by simp [absent]), clean.typedefAt?_eq_none,
      if_neg (by simp [absent]), bind_run word]
    rfl
  · rw [get_run, if_pos (by rw [ends]; rfl)]
    rfl

theorem requireName_run (ty : TyId) (tok start : Nat) :
    Declarator.requireName ⟨ty, some tok, start⟩ state = .ok tok state := rfl

/-- A declarator that is a name. -/
theorem declarator_of_name {ty declared : TyId} (shows : state.Shows (.name name :: rest))
    (suffixed : suffix again ty state.next = .ok declared after) :
    declarator again ty state = .ok ⟨declared, some state.pos, state.pos⟩ after := by
  have absent (symbol : String) : state.sees symbol = false := shows.sees_eq_false rfl
  have stars : pointers ty state = .ok ty state := by
    apply iterate_done
    rw [accept_else (absent "*")]
    rfl
  have identifier : state.current.isIdentifier = true := by
    rw [Token.isIdentifier, shows.current.1]
    rfl
  unfold declarator
  rw [position_run, bind_run stars, get_run, if_neg (by simp [absent]),
    bind_run (identifier?_run identifier), bind_run suffixed]
  rfl

/-! ## Local variables -/

/-- A local variable of type `int` has been declared. -/
def State.withLocal (state : State) (name : String) : State :=
  { state with
    scopes := state.scopes.declareVariable name (.object ⟨state.program.symbols.size⟩)
    function := state.function.map fun function =>
      { function with locals := function.locals ++ [⟨state.program.symbols.size⟩] }
    program :=
      { state.program with
        symbols := state.program.symbols.push ⟨name, .int, false, .localVar none⟩ } }

theorem declareLocal_run {tok start : Nat}
    (int : state.program.types.get? .int = some ⟨.int, 4, 4, none⟩)
    (text : (state.token tok).text = name.text) (noInitialiser : state.sees "=" = false) :
    declareLocal again [] ⟨.int, some tok, start⟩ tok state =
      .ok [] (state.withLocal name.text) := by
  have checked : checkVariableTy .int tok state = .ok () state := by
    refine (query_run (lookupTy_eq_ok int)).trans ?_
    rfl
  have entered : newLocal name.text .int state =
      .ok ⟨state.program.symbols.size⟩ (state.withLocal name.text) := rfl
  have uninitialised : initialiser again ⟨state.program.symbols.size⟩ tok
      (state.withLocal name.text) = .ok [] (state.withLocal name.text) := by
    unfold initialiser
    rw [position_run]
    exact accept_else noInitialiser
  unfold declareLocal
  rw [bind_run checked, get_run, text, bind_run entered, bind_run uninitialised]
  rfl

/-- A declaration of one variable behind its specifiers. -/
theorem declaratorList_run
    (int : state.program.types.get? .int = some ⟨.int, 4, 4, none⟩)
    (shows : state.Shows (.name name :: .symbol ";" :: rest)) :
    declaratorList again .int [] (declareLocal again) state =
      .ok [] (state.next.withLocal name.text).next := by
  have absent {symbol : String} (other : ";" ≠ symbol) : state.next.sees symbol = false :=
    State.sees_eq_false shows.next.sees other
  have suffixed : suffix again .int state.next = .ok .int state.next := by
    unfold suffix
    rw [accept_else (absent (by decide)), accept_else (absent (by decide))]
    rfl
  have declared := declarator_of_name shows suffixed
  have text : (state.next.token state.pos).text = name.text := shows.current.2
  refine iterate_again_done (false, []) (state.next.withLocal name.text) ?_ ?_
  · refine (accept_else (shows.sees_eq_false rfl)).trans ?_
    refine (bind_run declared).trans ?_
    refine (bind_run (requireName_run _ _ _)).trans ?_
    exact bind_run (declareLocal_run int text (absent (by decide)))
  · have here : (state.next.withLocal name.text).sees ";" = true := shows.next.sees
    exact accept_then here

/-- The state behind the declaration of a variable, which has left a node. -/
def State.declared (state : State) (name : String) (pos : Nat) (node : Node) : State :=
  { state.withLocal name with
    pos := pos
    program :=
      { (state.withLocal name).program with nodes := state.program.nodes.push node } }

theorem declaration_run (again : Productions)
    (shows : state.Shows (.name name :: .symbol ";" :: rest))
    (int : state.program.types.get? .int = some ⟨.int, 4, 4, none⟩) :
    ∃ node, node.kind = .block [] ∧
      declaration again .int state =
        .ok ⟨state.program.nodes.size⟩
          (state.declared name.text (state.pos + 2) node) := by
  refine ⟨⟨.block [], some .void, state.current.loc, state.current.line⟩, rfl, ?_⟩
  unfold declaration
  rw [position_run, bind_run (declaratorList_run int shows)]
  rfl

/-- The declaration of a variable is an empty block. -/
theorem blockItem_declaration (again : Productions) (clean : state.NoTypedef)
    (int : state.program.types.get? .int = some ⟨.int, 4, 4, none⟩)
    (shows : state.Shows (.symbol "int" :: .name name :: .symbol ";" :: rest)) :
    ∃ node, node.kind = .block [] ∧
      blockItem again state =
        .ok [⟨state.program.nodes.size⟩]
          (state.declared name.text (state.pos + 3) node) := by
  have notIdentifier : state.current.isIdentifier = false := by
    obtain ⟨kind | kind, -⟩ := shows.current
    · rw [Token.isIdentifier, kind]
      rfl
    · rw [Token.isIdentifier, kind]
      rfl
  have noLabel : state.startsLabel = false := by
    rw [State.startsLabel, notIdentifier]
    rfl
  obtain ⟨node, kind, declared⟩ :=
    declaration_run again shows.next int
  refine ⟨node, kind, ?_⟩
  unfold blockItem
  rw [get_run, if_pos (by rw [startsType_of_int shows, noLabel]; rfl)]
  unfold blockDeclaration
  rw [position_run, bind_run (specifiers_int true clean shows)]
  exact bind_run declared

end Grammar
end MiniC
