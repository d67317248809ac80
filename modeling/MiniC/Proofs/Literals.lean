import MiniC.Proofs.Emit.Definitions
import MiniC.Proofs.Sources

/-!
# String literals from source to assembly

Every string literal of a source that is compiled has one array of its own: the anonymous
symbols of the file scope are the literals of the source in their order.  The array has
the bytes of the literal and no others, and the assembly defines it once, with a line for
each byte.
-/

namespace MiniC

open Grammar Emit Asm

/-! ## Anonymous symbols -/

namespace Program

/-- Whether a symbol is anonymous.  No identifier begins as its name does. -/
def isAnonymous (program : Program) (id : SymbolId) : Bool :=
  (program.name? id).any (·.startsWith ".L..")

/-- The anonymous symbols of the file scope in the order of their declaration. -/
def anonymous (program : Program) : List SymbolId :=
  program.globals.toList.filter program.isAnonymous

variable {program : Program} {id : SymbolId} {number : Nat} {data : List UInt8}

/-- The variable of a literal is anonymous. -/
theorem HoldsLiteral.isAnonymous (holds : program.HoldsLiteral id number data) :
    program.isAnonymous id = true := by
  obtain ⟨symbol, found, name, -, -⟩ := holds
  unfold Program.isAnonymous name?
  rw [found, Option.map_some, Option.any_some, name,
    String.startsWith_string_iff, literalName, String.toList_append]
  exact List.prefix_append _ _

/-- A variable with a name of the source is not anonymous. -/
theorem isAnonymous_of_undotted {symbol : Symbol}
    (found : program.symbol? id = some symbol)
    (undotted : Undotted symbol.name) : program.isAnonymous id = false := by
  unfold isAnonymous name?
  rw [found, Option.map_some, Option.any_some, String.startsWith_string_eq_false_iff]
  rintro ⟨rest, name⟩
  apply undotted
  rw [← name]
  exact List.mem_append_left rest (by decide)

/-- The anonymous symbols are the arrays of the literals, one for each. -/
theorem Gathers.anonymous {ids : List SymbolId} {strings : List (List UInt8)}
    (gathers : program.Gathers number ids strings) :
    (ids.filter program.isAnonymous).length = strings.length ∧
      ∀ index id data, (ids.filter program.isAnonymous)[index]? = some id ->
        strings[index]? = some data -> program.HoldsLiteral id (number + index) data := by
  induction gathers with
  | nil number => simp
  | @literal number first literal ids rest holds _ hypothesis =>
      obtain ⟨count, each⟩ := hypothesis
      rw [List.filter_cons_of_pos holds.isAnonymous]
      refine ⟨by rw [List.length_cons, List.length_cons, count], ?_⟩
      intro index id data there read
      cases index with
      | zero =>
          cases there
          cases read
          exact holds
      | succ index =>
          rw [← Nat.add_assoc, Nat.add_right_comm]
          exact each index id data there read
  | named found undotted _ hypothesis =>
      rwa [List.filter_cons_of_neg (by simp [isAnonymous_of_undotted found undotted])]

end Program

/-! ## Data -/

/-- The code of the array of a string literal: its label and a line for each of its
bytes. -/
def literalCode (number : Nat) (data : List UInt8) : Code :=
  [.directive .data, .directive (.align 1), .label (.symbol (literalName number))]
    ++ data.map fun byte => .directive (.byte byte)

variable {program : Program} {id : SymbolId} {number : Nat} {data : List UInt8}

/-- The variable of a literal is emitted as its label and its bytes. -/
theorem symbolData_of_holdsLiteral (holds : program.HoldsLiteral id number data) :
    symbolData program id = .ok (literalCode number data) := by
  obtain ⟨symbol, found, name, kind, typed⟩ := holds
  have hidden : symbol.name.startsWith ".L" = true := by
    rw [name, String.startsWith_string_iff, literalName, String.toList_append]
    exact ⟨['.', '.'] ++ (toString number).toList, rfl⟩
  unfold symbolData
  rw [lookupSymbol_eq_ok.mpr found]
  simp only [Bind.bind, Except.bind, kind, lookupTy_eq_ok typed, hidden, if_true]
  rw [name]
  rfl

/-- No line with a byte comes first. -/
def BeginsNoByte (code : Code) : Prop :=
  ∀ byte, code.head? ≠ some (.directive (.byte byte))

theorem BeginsNoByte.flatten {codes : List Code}
    (each : ∀ code ∈ codes, BeginsNoByte code) :
    BeginsNoByte codes.flatten := by
  intro byte first
  rw [List.head?_flatten] at first
  obtain ⟨code, member, there⟩ := List.exists_of_findSome?_eq_some first
  exact each code member byte there

/-- The data of a variable begin with its label. -/
theorem beginsNoByte_symbolData {code : Code} (given : symbolData program id = .ok code) :
    BeginsNoByte code := by
  obtain ⟨symbol, -, ⟨init, ty, -, rfl⟩ | ⟨-, rfl⟩⟩ := symbolData_cases given
  · intro byte first
    cases first
  · intro byte first
    cases first

theorem beginsNoByte_data {ids : List SymbolId} {codes : List Code}
    (given : ids.mapM (symbolData program) = .ok codes) :
    ∀ code ∈ codes, BeginsNoByte code := by
  induction ids generalizing codes with
  | nil =>
      cases given
      simp
  | cons id rest hypothesis =>
      obtain ⟨code, others, first, following, rfl⟩ := data_cons given
      intro other member
      rcases List.mem_cons.mp member with rfl | later
      · exact beginsNoByte_symbolData first
      · exact hypothesis following other later

/-- The data of each variable are part of those of the program. -/
theorem mem_data {ids : List SymbolId} {codes : List Code} {code : Code}
    (given : ids.mapM (symbolData program) = .ok codes) (member : id ∈ ids)
    (own : symbolData program id = .ok code) : code ∈ codes := by
  induction ids generalizing codes with
  | nil => cases member
  | cons first rest hypothesis =>
      obtain ⟨other, others, head, following, rfl⟩ := data_cons given
      rcases List.mem_cons.mp member with rfl | later
      · cases own.symm.trans head
        exact List.mem_cons_self
      · exact List.mem_cons_of_mem other (hypothesis following later)

/-- The text of a function begins with its directives. -/
theorem beginsNoByte_texts {definitions : List Program.Definition}
    {state after : Emit.State}
    {texts : List Code} (given : Texts program definitions state texts after) :
    ∀ text ∈ texts, BeginsNoByte text := by
  induction given with
  | nil => simp
  | @cons definition _ _ start _ _ _ _ entry _ _ hypothesis =>
      intro text member
      rcases List.mem_cons.mp member with rfl | later
      · intro byte first
        unfold prologue at entry
        cases spilled : spillFrom program 0 definition.function.params with
        | error error =>
            rw [spilled] at entry
            cases entry
        | ok spills =>
            rw [spilled] at entry
            cases entry
            simp only [List.cons_append, List.head?_cons, Option.some.injEq,
              visibility] at first
            split at first <;> cases first
      · exact hypothesis text later

/-! ## Files -/

/-- The bytes of the string literals among tokens. -/
def TokenStream.literals (tokens : TokenStream) : List (List UInt8) :=
  tokens.toList.filterMap (·.kind.string?)

theorem TokenStream.strings_eq_literals {tokens : TokenStream} (sound : tokens.Sound) :
    tokens.strings 0 tokens.last = tokens.literals := by
  have body : tokens.between 0 tokens.last = tokens.body.toList := by
    refine List.ext_getElem (by simp [between, last]) fun index _ bound => ?_
    have inside : index < tokens.body.size := bound
    simp [between, get, inside]
  have noString : [tokens.eof].filterMap (·.kind.string?) = [] := by
    rw [List.filterMap_cons, sound.ended]
    rfl
  unfold strings literals toList
  rw [body, List.filterMap_append, noString, List.append_nil]

section

variable {file : SourceFile} {lines : Code}

/-- The array of a string literal stands in the code of a file. -/
theorem literalCode_of_compileLines (parsed : parseFile file = .ok program)
    (compiled : compileLines file = .ok lines) (declared : id ∈ program.globals.toList)
    (holds : program.HoldsLiteral id number data) :
    ∃ before after, lines = before ++ literalCode number data ++ after ∧
    BeginsNoByte after := by
  obtain ⟨other, codes, texts, after, otherParsed, known, given, rfl⟩ :=
    compileLines_parts compiled
  obtain rfl := Except.ok.inj (parsed.symm.trans otherParsed)
  obtain ⟨front, back, rfl⟩ :=
    List.append_of_mem (mem_data known declared (symbolData_of_holdsLiteral holds))
  refine ⟨header file.name ++ front.flatten, (back ++ texts).flatten, ?_, ?_⟩
  · simp only [List.flatten_append, List.flatten_cons, List.append_assoc]
  · refine .flatten fun code member => ?_
    rcases List.mem_append.mp member with inData | inTexts
    · exact beginsNoByte_data known code
        (List.mem_append_right front (List.mem_cons_of_mem _ inData))
    · exact beginsNoByte_texts given code inTexts

/-- The label of a string literal is defined exactly once. -/
theorem count_literalName (parsed : parseFile file = .ok program)
    (compiled : compileLines file = .ok lines) (declared : id ∈ program.globals.toList)
    (holds : program.HoldsLiteral id number data) :
    lines.count (.label (.symbol (literalName number))) = 1 := by
  obtain ⟨tokens, sound⟩ := sound_of_parseFile parsed
  refine Nat.le_antisymm (count_literalName_le sound parsed compiled number) ?_
  obtain ⟨before, after, split, -⟩ :=
    literalCode_of_compileLines parsed compiled declared holds
  rw [Nat.succ_le_iff, List.count_pos_iff, split, literalCode]
  simp

end

/-- No string literal is lost, doubled or changed.  The anonymous symbols of the file
scope are the string literals of the source, one for each and in their order; each is an
array of as many characters as its literal has bytes, and of just these bytes; and the
assembly defines its label once, followed by a line for each byte and then by something
else. -/
theorem string_literals_are_emitted_once
    {file : SourceFile}
    {text : String}
    (compiled : compile file = .ok text) :
    ∃ tokens program lines, tokenize file = .ok tokens ∧ parse tokens = .ok program ∧
      compileLines file = .ok lines ∧ text = lines.render ∧
      program.anonymous.length = tokens.literals.length ∧
      ∀ number id data, program.anonymous[number]? = some id ->
        tokens.literals[number]? = some data ->
          program.HoldsLiteral id number data ∧
            lines.count (.label (.symbol (literalName number))) = 1 ∧
            ∃ before after, lines = before ++ literalCode number data ++ after ∧
              BeginsNoByte after := by
  obtain ⟨lines, known, rfl⟩ := compileLines_of_compile compiled
  obtain ⟨tokens, program, cut, parsed, accepted, -⟩ := parts_of_compileLines known
  have sound := sound_of_tokenize cut
  have gathers := gathers_of_parse sound (closed_of_tokenize cut) parsed
  rw [TokenStream.strings_eq_literals sound] at gathers
  obtain ⟨count, each⟩ := gathers.anonymous
  refine ⟨tokens, program, lines, cut, parsed, known, rfl, count, ?_⟩
  intro number id data there read
  have holds := each number id data there read
  rw [Nat.zero_add] at holds
  have declared : id ∈ program.globals.toList :=
    List.mem_of_mem_filter (List.mem_of_getElem? there)
  exact ⟨holds, count_literalName accepted known declared holds,
    literalCode_of_compileLines accepted known declared holds⟩

/-- A file with string literals in an operand of `sizeof` and in a statement
expression. -/
def quotingFile : SourceFile :=
  ⟨"t.c",
    "int f() \x7b return sizeof \"ab\"; \x7d char *g() \x7b return (\x7b \"c\"; \x7d); \x7d"⟩

/-- The two literals of that file are emitted once each. -/
theorem quotingFile_literals_are_emitted_once :
    ∃ text tokens program lines first second, compile quotingFile = .ok text ∧
      tokenize quotingFile = .ok tokens ∧ parse tokens = .ok program ∧
      text = lines.render ∧
      tokens.literals = [[97, 98, 0], [99, 0]] ∧ program.anonymous = [first, second] ∧
      program.HoldsLiteral first 0 [97, 98, 0] ∧ program.HoldsLiteral second 1 [99, 0] ∧
      lines.count (.label (.symbol ".L..0")) = 1 ∧
      lines.count (.label (.symbol ".L..1")) = 1 ∧
      ∃ before after, lines = before ++ literalCode 1 [99, 0] ++ after ∧
      BeginsNoByte after := by
  have facts : (compile quotingFile).isOk = true ∧
      (tokenize quotingFile).toOption.map TokenStream.literals =
        some [[97, 98, 0], [99, 0]] := by decide +kernel
  have compiled : compile quotingFile = .ok _ := @eq_ok_of_isOk _ _ _ "" facts.1
  obtain ⟨tokens, program, lines, cut, parsed, _, rendered, count, each⟩ :=
    string_literals_are_emitted_once compiled
  have read : tokens.literals = [[97, 98, 0], [99, 0]] := by
    have literals := facts.2
    rw [cut] at literals
    exact Option.some.inj literals
  rw [read] at count each
  obtain ⟨first, second, listed⟩ := List.length_eq_two.mp count
  rw [listed] at each
  obtain ⟨holds, once, _⟩ := each 0 first _ rfl rfl
  obtain ⟨alsoHolds, alsoOnce, stands⟩ := each 1 second _ rfl rfl
  exact ⟨_, tokens, program, lines, first, second, compiled, cut, parsed,
    rendered, read, listed, holds, alsoHolds, once, alsoOnce, stands⟩

end MiniC
