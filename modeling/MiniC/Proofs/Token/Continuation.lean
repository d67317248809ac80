import MiniC.Proofs.Token.Lexer

/-!
# Cutting a text that goes on

No piece of a text ends differently because a line break and more text follow it: a piece
that is closed is closed in its own characters, and one that is as long as possible ends
at the line break at the latest.  So the tokens of a text are the first tokens of a text
that goes on.
-/

namespace MiniC

/-- Characters that a line break ends are the same when more follows it. -/
theorem takeWhile_break {passes : Char -> Bool} (stops : passes '\n' = false)
    (text more : List Char) :
    (text ++ '\n' :: more).takeWhile passes = text.takeWhile passes := by
  induction text with
  | nil => exact List.takeWhile_cons_of_neg (by simp [stops])
  | cons char rest hypothesis =>
      rw [List.cons_append, List.takeWhile_cons, List.takeWhile_cons, hypothesis]

/-! ## Numbers -/

namespace Number

theorem mark_le (text : List Char) : (reading text).mark ≤ text.length := by
  unfold reading
  split <;> simp

/-- A line break changes the reading only of a mark without digits. -/
theorem reading_append (text more : List Char) :
    reading (text ++ '\n' :: more) = reading text ∨
      ∃ mark ∈ ['x', 'X', 'b', 'B'], text = ['0', mark] := by
  match text with
  | [] => exact .inl rfl
  | [char] =>
      left
      unfold reading
      split <;> simp_all
  | [char, mark] =>
      by_cases bare : char = '0' ∧ mark ∈ ['x', 'X', 'b', 'B']
      · obtain ⟨rfl, marks⟩ := bare
        exact .inr ⟨mark, marks, rfl⟩
      · left
        unfold reading
        split <;> simp_all
  | char :: mark :: digit :: rest =>
      left
      by_cases zero : char = '0'
      · subst zero
        by_cases marks : mark ∈ ['x', 'X', 'b', 'B']
        · simp only [List.mem_cons, List.not_mem_nil, or_false] at marks
          rcases marks with rfl | rfl | rfl | rfl <;> rfl
        · simp_all [reading]
      · simp_all [reading]

theorem scan_append {text : List Char} {result : Int × Nat}
    (scanned : scan text = .ok result)
    (more : List Char) : scan (text ++ '\n' :: more) = .ok result ∧
    result.2 ≤ text.length := by
  rcases reading_append text more with same | ⟨mark, marks, rfl⟩
  · have digits := takeWhile_break (show isAlphanumeric '\n' = false by decide)
      (text.drop (reading text).mark) more
    have length :=
      (List.takeWhile_prefix (l := text.drop (reading text).mark)
        isAlphanumeric).length_le
    have marked := mark_le text
    unfold scan at scanned ⊢
    dsimp only at scanned ⊢
    rw [same, List.drop_append_of_le_length marked, digits]
    refine ⟨scanned, ?_⟩
    split at scanned <;> cases scanned
    rw [List.length_drop] at length
    dsimp only
    omega
  · simp only [List.mem_cons, List.not_mem_nil, or_false] at marks
    rcases marks with rfl | rfl | rfl | rfl <;> cases scanned

end Number

/-! ## Literals in quotes -/

namespace Quoted

theorem leadingDigits_break {digit? : Char -> Option Nat} (stops : digit? '\n' = none)
    (text more : List Char) :
    leadingDigits digit? (text ++ '\n' :: more) = leadingDigits digit? text := by
  induction text with
  | nil => simp [leadingDigits, stops]
  | cons char rest hypothesis =>
      rw [List.cons_append, leadingDigits, leadingDigits, hypothesis]

theorem length_leadingDigits_le (digit? : Char -> Option Nat) (text : List Char) :
    (leadingDigits digit? text).length ≤ text.length := by
  induction text with
  | nil => exact Nat.le_refl 0
  | cons char rest hypothesis =>
      rw [leadingDigits]
      split
      · exact Nat.zero_le _
      · exact Nat.succ_le_succ hypothesis

/-- An escape ends in its own characters. -/
theorem escape_append {text : List Char} {result : List UInt8 × Nat}
    (read : escape text = .ok result) (more : List Char) :
    escape (text ++ '\n' :: more) = .ok result ∧ result.2 ≤ text.length := by
  cases text with
  | nil => cases read
  | cons char rest =>
      have octal :=
        leadingDigits_break (show octalDigit? '\n' = none by decide) (char :: rest) more
      have hex := leadingDigits_break (show hexDigit? '\n' = none by decide) rest more
      have octalLength := length_leadingDigits_le octalDigit? (char :: rest)
      have hexLength := length_leadingDigits_le hexDigit? rest
      unfold escape at read ⊢
      rw [List.cons_append] at octal ⊢
      dsimp only at read ⊢
      rw [octal, hex]
      refine ⟨read, ?_⟩
      rw [List.length_cons] at octalLength ⊢
      split at read
      · cases read
        rw [List.length_take]
        omega
      split at read
      · split at read <;> cases read
        dsimp only
        omega
      split at read <;> cases read <;> exact Nat.le_add_left 1 _

theorem stringRest_append {text : List Char} {seen : Nat} {result : List UInt8 × Nat}
    (read : stringRest text seen = .ok result) (more : List Char) :
    stringRest (text ++ '\n' :: more) seen = .ok result ∧
    result.2 ≤ seen + text.length := by
  induction size : text.length using Nat.strongRecOn generalizing text seen result with
  | ind count hypothesis =>
  cases text with
  | nil =>
      rw [stringRest] at read
      cases read
  | cons char rest =>
      obtain rfl : rest.length + 1 = count := size
      rw [List.cons_append, stringRest]
      rw [stringRest] at read
      by_cases ends : char = '\n'
      · rw [if_pos ends] at read
        cases read
      rw [if_neg ends] at read ⊢
      by_cases quote : char = '"'
      · rw [if_pos quote] at read ⊢
        cases read
        exact ⟨rfl, by dsimp only; omega⟩
      rw [if_neg quote] at read ⊢
      by_cases backslash : char = '\\'
      · rw [if_pos backslash] at read ⊢
        cases escaped : escape rest with
        | error error =>
            rw [escaped] at read
            cases read
        | ok found =>
            obtain ⟨bytes, length⟩ := found
            obtain ⟨same, bound⟩ := escape_append escaped more
            rw [escaped] at read
            rw [same]
            dsimp only at read bound ⊢
            cases inner : stringRest (rest.drop length) (seen + 1 + length) with
            | error failure =>
                rw [inner] at read
                cases read
            | ok following =>
                have shorter : (rest.drop length).length < rest.length + 1 := by
                  rw [List.length_drop]
                  omega
                obtain ⟨again, total⟩ := hypothesis _ shorter inner rfl
                rw [inner] at read
                cases read
                rw [List.drop_append_of_le_length bound, again]
                rw [List.length_drop] at total
                exact ⟨rfl, by dsimp only; omega⟩
      · rw [if_neg backslash] at read ⊢
        cases inner : stringRest rest (seen + 1) with
        | error failure =>
            rw [inner] at read
            cases read
        | ok following =>
            obtain ⟨again, total⟩ := hypothesis _ (Nat.lt_succ_self _) inner rfl
            rw [inner] at read
            cases read
            rw [again]
            exact ⟨rfl, by dsimp only; omega⟩

theorem characterContents_append
    {text rest : List Char} {bytes : List UInt8} {length : Nat}
    (read : characterContents text = .ok (bytes, length, rest)) (more : List Char) :
    characterContents (text ++ '\n' :: more) = .ok (bytes, length, rest ++ '\n' :: more) ∧
      length + rest.length = text.length := by
  cases text with
  | nil => cases read
  | cons char behind =>
      rw [List.cons_append, characterContents]
      rw [characterContents] at read
      by_cases ends : char = '\n'
      · rw [if_pos ends] at read
        cases read
      rw [if_neg ends] at read ⊢
      by_cases backslash : char = '\\'
      · rw [if_pos backslash] at read ⊢
        cases escaped : escape behind with
        | error error =>
            rw [escaped] at read
            cases read
        | ok found =>
            obtain ⟨same, bound⟩ := escape_append escaped more
            rw [escaped] at read
            cases read
            rw [same, List.length_cons, List.length_drop]
            dsimp only
            rw [List.drop_append_of_le_length bound]
            exact ⟨rfl, by omega⟩
      · rw [if_neg backslash] at read ⊢
        cases read
        exact ⟨rfl, by rw [List.length_cons, Nat.add_comm]⟩

theorem character_append {text : List Char} {result : Int × Nat}
    (read : character text = .ok result) (more : List Char) :
    character (text ++ '\n' :: more) = .ok result ∧ result.2 ≤ 1 + text.length := by
  unfold character at read ⊢
  split at read
  · cases read
  · rename_i byte length rest known
    obtain ⟨same, bound⟩ := characterContents_append known more
    cases read
    rw [same]
    rw [List.length_cons] at bound
    exact ⟨rfl, by dsimp only; omega⟩
  · cases read

end Quoted

/-! ## Pieces -/

namespace Lexer

theorem commentEnd?_append {text : List Char} {length : Nat}
    (found : commentEnd? text = some length) (more : List Char) :
    commentEnd? (text ++ more) = some length ∧ length ≤ text.length := by
  fun_induction commentEnd? text generalizing length with
  | case1 => cases found
  | case2 rest =>
      cases found
      exact ⟨rfl, by simp⟩
  | case3 char rest other hypothesis =>
      obtain ⟨inner, known, rfl⟩ := Option.map_eq_some_iff.mp found
      obtain ⟨same, bound⟩ := hypothesis known
      refine ⟨?_, Nat.succ_le_succ bound⟩
      have still : ∀ behind, char = '*' -> rest ++ more = '/' :: behind -> False := by
        intro behind star slash
        cases rest with
        | nil => cases known
        | cons next rest =>
            obtain ⟨rfl, _⟩ := List.cons.inj slash
            exact other rest star rfl
      rw [List.cons_append, commentEnd?, same]
      · rfl
      · exact still

/-- A lexeme ends in its own characters or at the line break. -/
theorem lexeme_append {char : Char} {rest : List Char} {found : Piece}
    (cut : lexeme char rest = .ok found) (more : List Char) :
    lexeme char (rest ++ '\n' :: more) = .ok found ∧ found.more ≤ rest.length := by
  rw [lexeme_eq_ok] at cut ⊢
  cases cut with
  | blank isBlank => exact ⟨.blank isBlank, Nat.zero_le _⟩
  | number noBlank digit scanned =>
      obtain ⟨same, bound⟩ := Number.scan_append scanned more
      exact ⟨.number noBlank digit same, Nat.sub_le_of_le_add bound⟩
  | string quote read =>
      obtain ⟨same, bound⟩ := Quoted.stringRest_append read more
      exact ⟨.string quote same, Nat.sub_le_iff_le_add'.mpr bound⟩
  | character quote read =>
      obtain ⟨same, bound⟩ := Quoted.character_append read more
      exact ⟨.character quote same, Nat.sub_le_iff_le_add'.mpr bound⟩
  | word plain start =>
      have same := takeWhile_break (show isWordPart '\n' = false by decide) rest more
      refine ⟨?_, (List.takeWhile_prefix _).length_le⟩
      rw [← same]
      exact .word plain start
  | long plain noWord punctuator =>
      cases rest with
      | nil => cases punctuator
      | cons next rest =>
          exact ⟨.long plain noWord punctuator, Nat.succ_le_succ (Nat.zero_le _)⟩
  | short plain noWord noLong punctuation =>
      refine ⟨.short plain noWord ?_ punctuation, Nat.zero_le _⟩
      cases rest with
      | nil => simp [startsLongPunctuator, longPunctuators]
      | cons next rest => exact noLong

/-- A piece ends in its own characters or at the line break. -/
theorem piece_append {char : Char} {rest : List Char} {found : Piece}
    (cut : piece char rest = .ok found) (more : List Char) :
    piece char (rest ++ '\n' :: more) = .ok found ∧ found.more ≤ rest.length := by
  unfold piece at cut
  split at cut
  · rename_i text
    cases cut
    refine ⟨?_, ?_⟩
    · rw [List.cons_append, piece, firstLine, takeWhile_break (by decide)]
      rfl
    · rw [List.length_cons, Nat.add_comm]
      exact Nat.succ_le_succ (List.takeWhile_prefix _).length_le
  · rename_i text
    cases known : commentEnd? text with
    | none =>
        rw [known] at cut
        cases cut
    | some length =>
        obtain ⟨same, bound⟩ := commentEnd?_append known ('\n' :: more)
        rw [known] at cut
        cases cut
        rw [List.cons_append, piece, same]
        exact ⟨rfl, by rw [List.length_cons]; dsimp only; omega⟩
  · rename_i noLine noBlock
    have still :
        piece char (rest ++ '\n' :: more) = lexeme char (rest ++ '\n' :: more) := by
      cases rest with
      | nil | cons =>
          unfold piece
          split <;> simp_all
    rw [still]
    exact lexeme_append cut more

/-- The tokens of a text are that of its first piece, if it is one, and those of the
rest. -/
theorem tokens_cons {char : Char} {rest : List Char} {found : Piece}
    (cut : piece char rest = .ok found) (loc line : Nat) :
    tokens (char :: rest) loc line =
      (tokens (rest.drop found.more) (loc + byteLength (char :: rest.take found.more))
        (line + (char :: rest.take found.more).count '\n')).map fun parts =>
          ((found.kind.map fun kind =>
            (⟨kind, String.ofList (char :: rest.take found.more), loc, line⟩ :
              Token)).toList
            ++ parts.1, parts.2) := by
  rw [tokens, cut]
  dsimp only
  cases tokens (rest.drop found.more) _ _ with
  | error error => rfl
  | ok parts => cases found.kind <;> rfl

/-- A text that is cut begins with a piece, and what follows it is cut. -/
theorem tokens_cons_ok {char : Char} {rest : List Char} {loc line : Nat}
    {body : List Token}
    {eof : Token} (cut : tokens (char :: rest) loc line = .ok (body, eof)) :
    ∃ found following, piece char rest = .ok found ∧
      tokens (rest.drop found.more) (loc + byteLength (char :: rest.take found.more))
        (line + (char :: rest.take found.more).count '\n') = .ok (following, eof) ∧
      body = (found.kind.map fun kind =>
        (⟨kind, String.ofList (char :: rest.take found.more), loc, line⟩ : Token)).toList
        ++ following := by
  cases known : piece char rest with
  | error failure =>
      rw [tokens, known] at cut
      cases cut
  | ok found =>
      rw [tokens_cons known] at cut
      cases behind : tokens (rest.drop found.more)
        (loc + byteLength (char :: rest.take found.more))
          (line + (char :: rest.take found.more).count '\n') with
      | error error =>
          rw [behind] at cut
          cases cut
      | ok parts =>
          rw [behind] at cut
          cases cut
          exact ⟨found, parts.1, rfl, behind, rfl⟩

/-- The tokens of a text are followed by those of what stands behind the line break. -/
theorem tokens_append {text : List Char} {loc line : Nat}
    {body : List Token} {eof : Token}
    (cut : tokens text loc line = .ok (body, eof)) (more : List Char) :
    tokens (text ++ '\n' :: more) loc line =
      (tokens ('\n' :: more) (loc + byteLength text) (line + text.count '\n')).map
        fun parts => (body ++ parts.1, parts.2) := by
  induction size : text.length using Nat.strongRecOn generalizing text loc
    line body eof with
  | ind count hypothesis =>
  cases text with
  | nil =>
      rw [tokens] at cut
      cases cut
      change tokens ('\n' :: more) loc line = (tokens ('\n' :: more) loc line).map id
      cases tokens ('\n' :: more) loc line <;> rfl
  | cons char rest =>
      obtain ⟨found, following, known, behind, rfl⟩ := tokens_cons_ok cut
      obtain ⟨same, bound⟩ := piece_append known more
      have shorter : (rest.drop found.more).length < count := by
        rw [← size, List.length_drop, List.length_cons]
        omega
      have whole :
          char :: rest = (char :: rest.take found.more) ++ rest.drop found.more := by
        rw [List.cons_append, List.take_append_drop]
      rw [List.cons_append, tokens_cons same, List.drop_append_of_le_length bound,
        List.take_append_of_le_length bound, hypothesis _ shorter behind rfl, whole,
        byteLength_append, List.count_append, ← Nat.add_assoc, ← Nat.add_assoc]
      cases tokens ('\n' :: more) _ _ with
      | error error => rfl
      | ok beyond => simp only [Except.map, List.append_assoc]

/-! ## The end of a file -/

/-- Only the end of a file is the end of a file. -/
theorem lexeme_ne_eof {char : Char} {rest : List Char} {found : Piece}
    (cut : lexeme char rest = .ok found) : found.kind ≠ some .eof := by
  cases lexeme_eq_ok.mp cut with
  | word plain start =>
      unfold wordKind
      split <;> simp
  | _ => simp

theorem piece_ne_eof {char : Char} {rest : List Char} {found : Piece}
    (cut : piece char rest = .ok found) : found.kind ≠ some .eof :=
  fun ends => lexeme_ne_eof (lexeme_of_piece cut ends) ends

theorem tokens_ne_eof {text : List Char} {loc line : Nat}
    {body : List Token} {eof : Token}
    (cut : tokens text loc line = .ok (body, eof)) :
    ∀ token ∈ body, token.kind ≠ .eof := by
  induction size : text.length using Nat.strongRecOn generalizing text loc
    line body eof with
  | ind count hypothesis =>
  cases text with
  | nil =>
      rw [tokens] at cut
      cases cut
      simp
  | cons char rest =>
      obtain ⟨found, following, known, behind, rfl⟩ := tokens_cons_ok cut
      have shorter : (rest.drop found.more).length < count := by
        rw [← size, List.length_drop, List.length_cons]
        omega
      intro token member ends
      rcases List.mem_append.mp member with own | later
      · rw [Option.mem_toList, Option.map_eq_some_iff] at own
        obtain ⟨kind, there, rfl⟩ := own
        exact piece_ne_eof known (there.trans (congrArg some ends))
      · exact hypothesis _ shorter behind rfl token later ends

end Lexer

/-! ## Files -/

/-- Nothing but its last token ends a stream. -/
def TokenStream.Closed (tokens : TokenStream) : Prop :=
  ∀ index, (tokens.get index).isEof = true -> tokens.last ≤ index

variable {tokens : TokenStream}

theorem sound_of_tokenize {file : SourceFile}
    (cut : tokenize file = .ok tokens) : tokens.Sound := by
  rcases tokenize_cases file with ⟨_, same, sound, _⟩ | ⟨_, _, failed, _⟩
  · rw [cut] at same
    cases same
    exact sound
  · rw [cut] at failed
    cases failed

theorem tokenize_parts {file : SourceFile} (cut : tokenize file = .ok tokens) :
    Lexer.tokens file.contents.toList 0 1 = .ok (tokens.body.toList, tokens.eof) := by
  unfold tokenize at cut
  split at cut
  · cases cut
  · cases cut
    assumption

theorem closed_of_tokenize {file : SourceFile} (cut : tokenize file = .ok tokens) :
    tokens.Closed := by
  intro index ends
  by_contra before
  have bound : index < tokens.body.size := Nat.lt_of_not_le before
  have found : tokens.get index = tokens.body[index] := by
    rw [TokenStream.get, Array.getD, dif_pos bound]
    rfl
  have member : tokens.get index ∈ tokens.body.toList := by
    rw [found]
    simp
  exact Lexer.tokens_ne_eof (tokenize_parts cut) _ member
    (by simpa [Token.isEof] using ends)

/-- The tokens of a source are the first tokens of one that goes on. -/
theorem tokenize_append {name first second : String} {longer : TokenStream}
    (cut : tokenize ⟨name, first⟩ = .ok tokens)
    (alsoCut : tokenize ⟨name, first ++ "\n" ++ second⟩ = .ok longer) :
    tokens.last ≤ longer.last ∧
      ∀ index, index < tokens.last -> longer.get index = tokens.get index := by
  have whole := tokenize_parts alsoCut
  have text :
      (first ++ "\n" ++ second).toList = first.toList ++ '\n' :: second.toList := by simp
  rw [text, Lexer.tokens_append (tokenize_parts cut)] at whole
  cases behind : Lexer.tokens ('\n' :: second.toList) _ _ with
  | error error =>
      rw [behind] at whole
      cases whole
  | ok rest =>
      rw [behind] at whole
      have parts : tokens.body.toList ++ rest.1 = longer.body.toList :=
        congrArg Prod.fst (Except.ok.inj whole)
      have grown : tokens.last + rest.1.length = longer.last := by
        simpa [TokenStream.last] using congrArg List.length parts
      refine ⟨by omega, fun index before => ?_⟩
      have shared : longer.body[index]? = tokens.body[index]? := by
        rw [← Array.getElem?_toList, ← parts, List.getElem?_append_left before,
          Array.getElem?_toList]
      have found : tokens.body[index]? = some tokens.body[index] :=
        Array.getElem?_eq_getElem before
      simp only [TokenStream.get, Array.getD_eq_getD_getElem?, shared, found,
        Option.getD_some]

end MiniC
