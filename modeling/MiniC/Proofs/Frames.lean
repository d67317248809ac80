import Mathlib
import MiniC.Proofs.Compile
import MiniC.Proofs.Grammar.Runs
import MiniC.Proofs.Simulation.Frame

/-!
# Frames of functions

Every function of a parsed file has a frame in which its locals are aligned and occupy
bytes of their own, and its nodes refer to no other local.  A definition is rejected for
its frame exactly when the size of the frame, over all integers, exceeds the range of a
displacement.
-/

namespace MiniC

/-! ## The frame of a function -/

/-- The addresses of a local at an offset below the base of a frame. -/
def slotAt (base offset : Int) (ty : Ty) : Set Int :=
  Set.Ico (base - offset) (base - offset + ty.size)

namespace Program

/-- The frame of a function, wherever its base is. -/
structure SoundFrame (program : Program) (function : Function)
    (body : NodeId) : Prop where
  placed : ∀ id ∈ function.locals, ∃ offset ty, program.Placed id offset ty
  apart : ∀ id ∈ function.locals, ∀ other ∈ function.locals, id ≠ other ->
    ∀ offset ty otherOffset otherTy, program.Placed id offset ty ->
      program.Placed other otherOffset otherTy ->
      ∀ base, Disjoint (slotAt base offset ty) (slotAt base otherOffset otherTy)
  inside : ∀ id ∈ function.locals, ∀ offset ty, program.Placed id offset ty ->
    0 ≤ ty.size ∧
      ∀ base, slotAt base offset ty ⊆ Set.Ico (base - function.stackSize) base
  aligned : ∀ id ∈ function.locals, ∀ offset ty, program.Placed id offset ty ->
    ty.align ∣ offset
  size_aligned : 16 ∣ function.stackSize
  size_nonneg : 0 ≤ function.stackSize
  size_le : function.stackSize ≤ Extent.maxInt32
  locals_nodup : function.locals.Nodup
  params_first : function.params <+: function.locals
  own : ∀ id node symbol entry, program.Contains body id ->
    program.node? id = some node ->
    node.kind = .var symbol -> program.symbol? symbol = some entry ->
    entry.isLocal = true -> symbol ∈ function.locals

/-- A finished function has a sound frame. -/
theorem DefinitionRule.soundFrame
    {program : Program}
    {tokens : TokenStream}
    (sound : program.Sound tokens)
    {base : Nat}
    {symbol : Symbol}
    {function : Function}
    {body : NodeId}
    (rule : program.DefinitionRule base symbol function body) :
    program.SoundFrame function body := by
  have frame := rule.frame
  exact
    { placed := by
        intro id member
        obtain ⟨offset, ty, placed, _⟩ := frame.placed id member
        exact ⟨offset, ty, placed⟩
      apart := by
        intro id member other otherMember different offset ty otherOffset otherTy placed
          otherPlaced base
        have apart :=
          frame.apart id member other otherMember different _ _ _ _ placed otherPlaced
        apply Set.disjoint_left.mpr
        intro place inFirst inSecond
        obtain ⟨above, below⟩ := inFirst
        obtain ⟨otherAbove, otherBelow⟩ := inSecond
        omega
      inside := by
        intro id member offset ty placed
        obtain ⟨own, ownTy, ownPlaced, sized, room, bound⟩ := frame.placed id member
        obtain ⟨rfl, rfl⟩ := placed.unique ownPlaced
        refine ⟨sized, fun base => Set.Ico_subset_Ico ?_ ?_⟩
        · omega
        · omega
      aligned := fun id member offset ty placed =>
        Int.dvd_of_emod_eq_zero (frame.aligned id member offset ty placed)
      size_aligned := Int.dvd_of_emod_eq_zero frame.size_aligned
      size_nonneg := frame.size_nonneg
      size_le := frame.size_le
      locals_nodup := rule.locals_nodup
      params_first := rule.params_first
      own := by
        intro id node symbol entry contains found kind declared isLocal
        obtain ⟨start, result, params, type, _, _, home⟩ := rule.homeRule sound
        obtain ⟨same, there, inside⟩ := (home id node contains found).own symbol kind
        obtain rfl := Option.some.inj (declared.symm.trans there)
        exact inside isLocal }

end Program

/-- A symbol that names a function is one. -/
theorem Symbol.kind_of_function? {symbol : Symbol} {function : Function}
    (names : symbol.function? = some function) : symbol.kind = .function function := by
  unfold Symbol.function? at names
  split at names
  · rename_i kind
    rw [kind, Option.some.inj names]
  · cases names

/-! ## Definitions in a source file -/

namespace Grammar

/-- The states that parsing goes through from one declaration of a source file to the
next. -/
inductive Between (again : Productions) (tokens : TokenStream) : State -> Prop
  | start : Between again tokens (.initial tokens)
  | next {state after : State}
      (reached : Between again tokens state)
      (more : state.current.isEof = false)
      (declared : fileDeclaration again state = .ok () after) :
      Between again tokens after

/-- A function definition in a source file passes every check but that of its frame. -/
structure PassesOtherChecks (tokens : TokenStream) (before due : State) (id : SymbolId)
    (tok : Nat) (function : Function) : Prop where
  between : Between (productions (tokens.last + 1)) tokens before
  more : before.current.isEof = false
  read : declarationUpToFrame (productions (tokens.last + 1)) before =
    .ok (some (id, tok)) due
  own : ∃ symbol, due.program.symbol? id = some symbol ∧ symbol.kind = .function function

variable {tokens : TokenStream} {again : Productions} {state after : State}

/-- Parsing a source file goes on from each state between two declarations. -/
theorem Between.unit_eq (sound : tokens.Sound)
    (between : Between (productions (tokens.last + 1)) tokens state) :
    (∃ last, AtFile tokens last state) ∧ ∃ bound, tokens.last - state.pos < bound ∧
      unit (productions (tokens.last + 1)) (.initial tokens) =
        iterateFor (unitRound (productions (tokens.last + 1))) bound () state := by
  induction between with
  | start =>
      refine ⟨⟨0, initial_atFile tokens⟩, tokens.last + 2, ?_, unit_run _ _⟩
      exact Nat.lt_of_le_of_lt (Nat.sub_le _ _) (by omega)
  | @next before after reached more declared hypothesis =>
      obtain ⟨⟨last, file⟩, bound, enough, same⟩ := hypothesis
      have outcome := fileDeclaration_meets
        (productions_sound sound (tokens.last + 1)) sound (Nat.le_succ _) file
      unfold Meets at outcome
      rw [declared] at outcome
      obtain ⟨fileThen, forward⟩ := outcome
      -- Each declaration moves the cursor, so a round is left for the next one.
      obtain ⟨rest, rfl⟩ : ∃ rest, bound = rest + 1 := ⟨bound - 1, by omega⟩
      refine ⟨fileThen, rest, ?_, ?_⟩
      · obtain ⟨next, atFile⟩ := fileThen
        have bounded := atFile.inv.cursor
        omega
      · have round : unitRound (productions (tokens.last + 1)) () before =
            .ok (.again ()) after := by
          rw [unitRound_run more]
          exact bind_run declared
        rw [same, iterateFor, bind_run round]

/-- An error in a declaration ends the parsing of the source file. -/
theorem Between.parse_eq (sound : tokens.Sound)
    (between : Between (productions (tokens.last + 1)) tokens state)
    (more : state.current.isEof = false)
    {error : Error}
    (failed : fileDeclaration (productions (tokens.last + 1)) state =
      .error error after) :
    parse tokens = .error error := by
  obtain ⟨_, bound, enough, same⟩ := between.unit_eq sound
  obtain ⟨rest, rfl⟩ : ∃ rest, bound = rest + 1 := ⟨bound - 1, by omega⟩
  have ended :
      unit (productions (tokens.last + 1)) (.initial tokens) = .error error after := by
    rw [same, iterateFor]
    apply bind_fail
    rw [unitRound_run more]
    exact bind_fail failed
  unfold parse
  rw [ended]

/-- A definition that passes all other checks waits for its frame, and its layout ends the
declaration. -/
theorem PassesOtherChecks.frameDue (sound : tokens.Sound)
    {before due : State} {id : SymbolId} {tok : Nat} {function : Function}
    (passes : PassesOtherChecks tokens before due id tok function) :
    FrameDue tokens id function due ∧
      fileDeclaration (productions (tokens.last + 1)) before =
        layoutFrame id tok due := by
  obtain ⟨⟨last, file⟩, _⟩ := passes.between.unit_eq sound
  have outcome := declarationUpToFrame_meets
    (productions_sound sound (tokens.last + 1)) sound (Nat.le_succ _) file
  unfold Meets at outcome
  rw [passes.read] at outcome
  obtain ⟨⟨other, waits⟩, _⟩ := outcome
  obtain ⟨symbol, found, kind⟩ := passes.own
  obtain ⟨same, there, sameKind⟩ := waits.own
  obtain rfl := Option.some.inj (found.symm.trans there)
  obtain rfl := SymbolKind.function.inj (kind.symm.trans sameKind)
  refine ⟨waits, ?_⟩
  rw [fileDeclaration_eq]
  exact bind_run passes.read

end Grammar

open Grammar

/-- In a file that is parsed, every function with a body has a sound frame.  A definition
that passes all other checks is rejected at the name of its function exactly when its
frame exceeds the range of a displacement, and else gets a frame of exactly that size. -/
theorem frames_are_sound_or_rejected_as_too_large
    {file : SourceFile}
    {tokens : TokenStream}
    (cut : tokenize file = .ok tokens) :
    (∀ program, parseFile file = .ok program ->
      ∀ id symbol function body, program.symbol? id = some symbol ->
        symbol.kind = .function function -> function.body = some body ->
        program.SoundFrame function body) ∧
    ∀ before due id tok function, PassesOtherChecks tokens before due id tok function ->
      ((∃ after, fileDeclaration (productions (tokens.last + 1)) before =
          .error (.rejected (.typing .frameTooLarge) (tokens.get tok).loc) after) ↔
        Extent.maxInt32 < due.program.frameExtent function.locals) ∧
      (Extent.maxInt32 < due.program.frameExtent function.locals ->
        parseFile file = .error (.rejected (.typing .frameTooLarge)
          (tokens.get tok).loc)) ∧
      (due.program.frameExtent function.locals ≤ Extent.maxInt32 ->
        ∃ after symbol,
          fileDeclaration (productions (tokens.last + 1)) before = .ok () after ∧
          after.program.symbol? id = some symbol ∧ symbol.kind = .function
            { function with stackSize := due.program.frameExtent function.locals }) := by
  have parsed : parseFile file = parse tokens := by
    unfold parseFile
    rw [cut]
    rfl
  have sound : tokens.Sound := by
    rcases tokenize_cases file with ⟨other, otherCut, sound, _⟩ | ⟨_, _, failed, _⟩
    · obtain rfl := Except.ok.inj (cut.symm.trans otherCut)
      exact sound
    · cases cut.symm.trans failed
  constructor
  · intro program accepted id symbol function body found kind defined
    obtain ⟨others, rules⟩ := sound_of_parseFile accepted
    obtain ⟨base, rule⟩ := rules.definitions id symbol function body found kind defined
    exact rule.soundFrame rules
  · intro before due id tok function passes
    obtain ⟨waits, last⟩ := passes.frameDue sound
    rw [last, parsed]
    rcases waits.layoutFrame_run tok with
      ⟨beyond, after, failed⟩ | ⟨small, after, laid, _, _, symbol, found, kind⟩
    · have ended : parse tokens =
          .error (.rejected (.typing .frameTooLarge) (tokens.get tok).loc) :=
        passes.between.parse_eq sound passes.more (last.trans failed)
      refine ⟨⟨fun _ => beyond, fun _ => ⟨after, failed⟩⟩, fun _ => ended,
        fun small => ?_⟩
      omega
    · refine ⟨⟨?_, ?_⟩, ?_, fun _ => ⟨after, symbol, laid, found, kind⟩⟩
      · rintro ⟨other, failed⟩
        cases laid.symm.trans failed
      · intro beyond
        omega
      · intro beyond
        omega

/-- A file with a parameter, two locals of different alignment, and a use of each. -/
def twoLocalsFile : SourceFile :=
  ⟨"t.c", "long f(char a) { char b = a; long c = b; return c; }"⟩

/-- The program in that file. -/
def twoLocalsProgram : Program := (parseFile twoLocalsFile).toOption.getD .empty

/-- A file with a local that is too large by one byte. -/
def hugeLocalFile : SourceFile := ⟨"t.c", "int f() { char a[2147483633]; }"⟩

/-- The tokens of that file. -/
def hugeLocalTokens : TokenStream :=
  (tokenize hugeLocalFile).toOption.getD ⟨#[], ⟨.eof, "", 0, 0⟩⟩

/-- What is read of the definition in that file: what is due, and the size of its
frame. -/
def hugeLocalRead : Option (Option (SymbolId × Nat) × Option Int) :=
  match declarationUpToFrame (productions (hugeLocalTokens.last + 1))
    (.initial hugeLocalTokens) with
  | .ok due state => some (due, do
      let symbol ← state.program.symbol? ⟨0⟩
      let function ← symbol.function?
      return state.program.frameExtent function.locals)
  | .error _ _ => none

/-- The two locals and the parameter of the one file get a sound frame of sixteen bytes,
and the definition in the other is rejected at its name. -/
theorem two_locals_are_framed_and_huge_local_is_rejected :
    (∃ function body, twoLocalsProgram.SoundFrame function body ∧
      function.locals.length = 3 ∧ function.stackSize = 16) ∧
    parseFile hugeLocalFile = .error (.rejected (.typing .frameTooLarge) 4) := by
  constructor
  · obtain ⟨isOk, known⟩ : (parseFile twoLocalsFile).isOk = true ∧
        (twoLocalsProgram.symbol? ⟨0⟩).bind (·.function?) =
          some ⟨[⟨1⟩], [⟨1⟩, ⟨2⟩, ⟨3⟩], some ⟨15⟩, 16⟩ := by
      decide +kernel
    have accepted : parseFile twoLocalsFile = .ok twoLocalsProgram := eq_ok_of_isOk isOk
    obtain ⟨tokens, cut, _⟩ := exists_tokens_of_parseFile accepted
    obtain ⟨symbol, found, isFunction⟩ := Option.bind_eq_some_iff.mp known
    have framed := (frames_are_sound_or_rejected_as_too_large
      cut).1 _ accepted _ _ _ _ found (Symbol.kind_of_function? isFunction) rfl
    exact ⟨_, _, framed, rfl, rfl⟩
  · obtain ⟨isOk, read, more, place⟩ : (tokenize hugeLocalFile).isOk = true ∧
        hugeLocalRead = some (some (⟨0⟩, 1), some 2147483648) ∧
        (State.initial hugeLocalTokens).current.isEof = false ∧
        (hugeLocalTokens.get 1).loc = 4 := by
      decide +kernel
    have cut : tokenize hugeLocalFile = .ok hugeLocalTokens := eq_ok_of_isOk isOk
    unfold hugeLocalRead at read
    split at read
    · rename_i due state reached
      obtain ⟨rfl, sized⟩ := Prod.mk.inj (Option.some.inj read)
      obtain ⟨symbol, found, rest⟩ := Option.bind_eq_some_iff.mp sized
      obtain ⟨function, isFunction, extent⟩ := Option.bind_eq_some_iff.mp rest
      have passes : PassesOtherChecks hugeLocalTokens
          (.initial hugeLocalTokens) state ⟨0⟩ 1
          function :=
        { between := .start
          more
          read := reached
          own := ⟨symbol, found, Symbol.kind_of_function? isFunction⟩ }
      have beyond : Extent.maxInt32 < state.program.frameExtent function.locals := by
        rw [Option.some.inj extent]
        decide
      rw [← place]
      exact ((frames_are_sound_or_rejected_as_too_large cut).2 _ _ _ _ _ passes).2.1
        beyond
    · cases read

end MiniC
