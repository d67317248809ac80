import MiniC.Proofs.Compile
import MiniC.Proofs.Emit.Beside
import MiniC.Proofs.Grammar.Beside.Files

/-!
# Sources beside each other

The assembly for a source depends on nothing but its tokens and their lines: blanks and
comments within a line move tokens to other offsets, and these show only in the place of
an error.  And what stands behind a source that is accepted adds to its assembly and
changes nothing in it.
-/

namespace MiniC

open Grammar Emit Asm

/-! ## Layout within lines -/

/-- What a token is apart from its offset: its kind, with the value of a literal, its text
and its line. -/
def Token.content (token : Token) : TokenKind × String × Nat :=
  (token.kind, token.text, token.line)

/-- The offset that stands for any other. -/
def nowhere (_ : Nat) : Nat := 0

/-- Streams of the same content are the same but for their offsets. -/
theorem TokenStream.relocate_nowhere {tokens others : TokenStream}
    (same : tokens.toList.map Token.content = others.toList.map Token.content) :
    tokens.relocate nowhere = others.relocate nowhere := by
  have moved : tokens.toList.map (Token.relocate nowhere) =
      others.toList.map (Token.relocate nowhere) := by
    have again := congrArg (List.map fun content : TokenKind × String × Nat =>
      (⟨content.1, content.2.1, 0, content.2.2⟩ : Token)) same
    rwa [List.map_map, List.map_map] at again
  unfold toList at moved
  rw [List.map_append, List.map_append] at moved
  obtain ⟨body, eof⟩ := List.append_inj' moved rfl
  unfold relocate
  have bodies :
      tokens.body.map (Token.relocate nowhere) =
        others.body.map (Token.relocate nowhere) :=
    Array.toList_inj.mp (by simpa using body)
  rw [bodies, List.singleton_inj.mp eof]

/-- The lines for a file, or its error, are those for its tokens without their offsets. -/
theorem compileLines_nowhere {file : SourceFile} {tokens : TokenStream}
    (cut : tokenize file = .ok tokens) :
    (compileLines file).mapError (Error.relocate nowhere) =
      (parse (tokens.relocate nowhere) >>= fun program =>
        Emit.program program file.name) := by
  have lines : compileLines file =
      (parse tokens >>= fun program => Emit.program program file.name) := by
    unfold compileLines parseFile
    rw [cut]
    rfl
  rw [lines, parse_relocate (sound_of_tokenize cut)]
  cases parse tokens with
  | error error => rfl
  | ok program => exact (program_relocate program file.name nowhere).symm

/-- What ends a compilation is a rejection of the source text. -/
theorem exists_rejected_of_compileLines {file : SourceFile} {error : Error}
    (failed : compileLines file = .error error) :
    ∃ cause loc, error = .rejected cause loc := by
  unfold compileLines at failed
  rcases parseFile_cases file with
    ⟨tokens, program, _, parsed, sound, _⟩ | ⟨other, early, cause, loc, rfl, _⟩
  · rw [parsed] at failed
    obtain ⟨cause, index, rfl⟩ := program_rejectsAt sound file.name error failed
    exact ⟨cause, _, rfl⟩
  · rw [early] at failed
    cases failed
    exact ⟨cause, loc, rfl⟩

/-- Two sources of one name whose tokens differ in their offsets at most are compiled to
the same text, or rejected for the same reason. -/
theorem compile_eq_of_content_eq
    {name first second : String}
    {tokens others : TokenStream}
    (cut : tokenize ⟨name, first⟩ = .ok tokens)
    (alsoCut : tokenize ⟨name, second⟩ = .ok others)
    (same : tokens.toList.map Token.content = others.toList.map Token.content) :
    (∃ text, compile ⟨name, first⟩ = .ok text ∧ compile ⟨name, second⟩ = .ok text) ∨
      ∃ cause loc other, compile ⟨name, first⟩ = .error (.rejected cause loc) ∧
        compile ⟨name, second⟩ = .error (.rejected cause other) := by
  have agree : (compileLines ⟨name, first⟩).mapError (Error.relocate nowhere) =
      (compileLines ⟨name, second⟩).mapError (Error.relocate nowhere) := by
    rw [compileLines_nowhere cut, compileLines_nowhere alsoCut,
      TokenStream.relocate_nowhere same]
  unfold compile
  cases here : compileLines ⟨name, first⟩ with
  | ok lines =>
      cases there : compileLines ⟨name, second⟩ with
      | ok moreLines =>
          rw [here, there] at agree
          cases agree
          exact .inl ⟨_, rfl, rfl⟩
      | error error =>
          rw [here, there] at agree
          cases agree
  | error error =>
      cases there : compileLines ⟨name, second⟩ with
      | ok moreLines =>
          rw [here, there] at agree
          cases agree
      | error besides =>
          obtain ⟨cause, loc, rfl⟩ := exists_rejected_of_compileLines here
          obtain ⟨_, other, rfl⟩ := exists_rejected_of_compileLines there
          rw [here, there] at agree
          cases agree
          exact .inr ⟨cause, loc, other, rfl, rfl⟩

/-- The tokens of a source, if it has any. -/
def tokensOf (source : String) : TokenStream :=
  (tokenize ⟨"t.c", source⟩).toOption.getD ⟨#[], ⟨.eof, "", 0, 1⟩⟩

/-- A source without blanks where none are needed. -/
def denseSource : String := "int f(int a)\x7breturn a+1;\x7d"

/-- The same source with blanks and a comment. -/
def spacedSource : String := "int f ( int a ) \x7b /* next */ return a + 1 ; \x7d"

/-- The tokens of the two sources differ, but only in their offsets, and the sources are
compiled to the same text. -/
theorem spacedSource_is_compiled_like_denseSource :
    (tokensOf spacedSource).toList ≠ (tokensOf denseSource).toList ∧
      (tokensOf denseSource).toList.map Token.content =
        (tokensOf spacedSource).toList.map Token.content ∧
      ∃ text, compile ⟨"t.c", denseSource⟩ = .ok text ∧
        compile ⟨"t.c", spacedSource⟩ = .ok text := by
  have facts : (tokenize ⟨"t.c", denseSource⟩).isOk = true ∧
      (tokenize ⟨"t.c", spacedSource⟩).isOk = true ∧
      (tokensOf spacedSource).toList ≠ (tokensOf denseSource).toList ∧
      (tokensOf denseSource).toList.map Token.content =
        (tokensOf spacedSource).toList.map Token.content ∧
      (compile ⟨"t.c", denseSource⟩).isOk = true := by decide +kernel
  obtain ⟨dense, spaced, differ, same, compiles⟩ := facts
  refine ⟨differ, same, ?_⟩
  rcases compile_eq_of_content_eq (eq_ok_of_isOk dense) (eq_ok_of_isOk spaced) same with
    equal | ⟨_, _, _, failed, _⟩
  · exact equal
  · rw [failed] at compiles
    cases compiles

/-! ## A source that goes on -/

theorem render_append (first second : Code) :
    (first ++ second).render = first.render ++ second.render := by
  unfold Code.render
  rw [List.map_append, String.join_append]

theorem compileLines_of_compile {file : SourceFile} {text : String}
    (compiled : compile file = .ok text) :
    ∃ lines, compileLines file = .ok lines ∧ text = lines.render := by
  unfold compile at compiled
  cases known : compileLines file with
  | error error =>
      rw [known] at compiled
      cases compiled
  | ok lines =>
      rw [known] at compiled
      cases compiled
      exact ⟨lines, rfl, rfl⟩

theorem parts_of_compileLines {file : SourceFile} {lines : Code}
    (compiled : compileLines file = .ok lines) :
    ∃ tokens program, tokenize file = .ok tokens ∧ parse tokens = .ok program ∧
      parseFile file = .ok program ∧ Emit.program program file.name = .ok lines := by
  unfold compileLines at compiled
  unfold parseFile at compiled ⊢
  cases cut : tokenize file with
  | error error =>
      rw [cut] at compiled
      cases compiled
  | ok tokens =>
      rw [cut] at compiled
      cases parsed : parse tokens with
      | error error =>
          simp only [Bind.bind, Except.bind, parsed] at compiled
          cases compiled
      | ok program =>
          simp only [Bind.bind, Except.bind, parsed] at compiled
          exact ⟨tokens, program, rfl, parsed, parsed, compiled⟩

/-- The code for a source stays as it is when the source goes on.  What follows the line
break adds data behind its data and text behind its text. -/
theorem compile_append
    {name first second text longer : String}
    (compiled : compile ⟨name, first⟩ = .ok text)
    (alsoCompiled : compile ⟨name, first ++ "\n" ++ second⟩ = .ok longer) :
    ∃ program data texts state moreData moreTexts,
      parseFile ⟨name, first⟩ = .ok program ∧
        program.globals.toList.mapM (symbolData program) = .ok data ∧
        (program.definitions.mapM (functionText program)).run ⟨0, 0⟩ =
          .ok (texts, state) ∧
        text = (header name).render ++ Code.render data.flatten ++ Code.render
          texts.flatten ∧
        longer = (header name).render ++ Code.render data.flatten ++ Code.render moreData
          ++ Code.render texts.flatten ++ Code.render moreTexts := by
  obtain ⟨lines, known, rfl⟩ := compileLines_of_compile compiled
  obtain ⟨moreLines, alsoKnown, rfl⟩ := compileLines_of_compile alsoCompiled
  obtain ⟨tokens, program, cut, parsed, accepted, given⟩ := parts_of_compileLines known
  obtain ⟨others, more, alsoCut, alsoParsed, -, alsoGiven⟩ :=
    parts_of_compileLines alsoKnown
  obtain ⟨last_le, shared⟩ := tokenize_append cut alsoCut
  have sound := sound_of_tokenize cut
  obtain ⟨begins, ahead⟩ := begins_of_parse sound (sound_of_tokenize alsoCut)
    last_le shared parsed alsoParsed
  obtain ⟨_, rules⟩ := sound_of_parseFile accepted
  have declared (id : SymbolId) (member : id ∈ program.globals.toList) :
      ∃ symbol, program.symbol? id = some symbol :=
    rules.globals id (Array.mem_toList_iff.mp member)
  obtain ⟨data, texts, state, moreData, moreTexts, sameData, sameTexts, rfl, rfl⟩ :=
    program_of_begins begins ahead declared given alsoGiven
  refine ⟨program, data, texts, state, moreData, moreTexts, accepted, sameData,
    sameTexts, ?_, ?_⟩
  · rw [render_append, render_append]
  · rw [render_append, render_append, render_append, render_append]

/-- A source with a variable, a string literal and a function. -/
def shortSource : String := "char *v; char *f() \x7b return v = \"a\"; \x7d"

/-- More of the same, with calls of what stands before. -/
def furtherSource : String := "char *w; char *g() \x7b w = f(); return \"b\"; \x7d"

/-- The code for the short source stays when the further source follows. -/
theorem shortSource_code_stays :
    ∃ program data texts state moreData moreTexts text longer,
      compile ⟨"t.c", shortSource⟩ = .ok text ∧
        compile ⟨"t.c", shortSource ++ "\n" ++ furtherSource⟩ = .ok longer ∧
        parseFile ⟨"t.c", shortSource⟩ = .ok program ∧
        program.globals.toList.mapM (symbolData program) = .ok data ∧
        (program.definitions.mapM (functionText program)).run ⟨0, 0⟩ =
          .ok (texts, state) ∧
        text = (header "t.c").render ++ Code.render data.flatten ++ Code.render
          texts.flatten ∧
        longer = (header "t.c").render ++ Code.render data.flatten ++ Code.render moreData
          ++ Code.render texts.flatten ++ Code.render moreTexts := by
  have facts : (compile ⟨"t.c", shortSource⟩).isOk = true ∧
      (compile ⟨"t.c", shortSource ++ "\n" ++ furtherSource⟩).isOk =
        true := by decide +kernel
  have compiled := @eq_ok_of_isOk _ _ _ "" facts.1
  have alsoCompiled := @eq_ok_of_isOk _ _ _ "" facts.2
  obtain ⟨program, data, texts, state, moreData, moreTexts, parts⟩ :=
    compile_append compiled alsoCompiled
  exact ⟨program, data, texts, state, moreData, moreTexts, _, _, compiled,
    alsoCompiled, parts⟩

end MiniC
