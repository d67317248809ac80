import MiniC.Proofs.Precedence.Unit
import MiniC.Proofs.Token.Numerals

/-!
# Writing lexemes

A text is written lexeme by lexeme, with a blank behind each, and numbers in decimal.  It
is cut into tokens that are written as these lexemes.
-/

namespace MiniC

/-! ## Lexemes -/

namespace Precedence

/-- The punctuators and keywords of functions that declare variables. -/
def definitionSymbols : List String :=
  ["int", ";", Grammar.openBrace, Grammar.closeBrace] ++ expressionSymbols

namespace Lexeme

/-- The text that is written for a lexeme. -/
def text : Lexeme -> String
  | symbol text => text
  | name word => word.text
  | number value => toString value

/-- The kind of the token that a lexeme becomes. -/
def kind : Lexeme -> TokenKind
  | symbol text => if text ∈ Lexer.keywords then .keyword else .punctuator
  | name _ => .identifier
  | number value => .num value

/-- Before a blank the lexeme is cut off whole, and it ends no line. -/
def IsCut (lexeme : Lexeme) : Prop :=
  ∃ first more, lexeme.text.toList = first :: more ∧ '\n' ∉ first :: more ∧
    ∀ rest, Lexer.piece first (more ++ ' ' :: rest) = .ok ⟨some lexeme.kind, more.length⟩

theorem isCut_symbol : ∀ text ∈ definitionSymbols, (symbol text).IsCut := by
  simp only [definitionSymbols, expressionSymbols, List.cons_append, List.nil_append,
    List.forall_mem_cons, List.not_mem_nil, false_implies, implies_true, and_true]
  and_intros
  all_goals exact ⟨_, _, rfl, by decide, fun _ => rfl⟩

end Lexeme
end Precedence

namespace Lexer

/-- No blank is a letter, a digit or an underscore. -/
theorem isBlank_eq_false {char : Char} (part : isWordPart char = true) :
    isBlank char = false := by
  rw [Bool.eq_false_iff]
  intro blank
  simp only [isBlank, Bool.or_eq_true, beq_iff_eq] at blank
  rcases blank with (((rfl | rfl) | rfl) | rfl) | rfl <;> exact absurd part (by decide)

/-- A word before a blank. -/
theorem piece_word {first : Char} {more : List Char} (start : isWordStart first = true)
    (parts : ∀ char ∈ more, isWordPart char = true) (noDigit : first.isDigit = false)
    (rest : List Char) :
    piece first (more ++ ' ' :: rest) =
      .ok ⟨some (wordKind (String.ofList (first :: more))), more.length⟩ := by
  have apart {other : Char} (noStart : isWordStart other = false) : first ≠ other := by
    rintro rfl
    exact absurd start (by simp [noStart])
  have part : isWordPart first = true := by
    simp only [isWordStart, isWordPart, Number.isAlphanumeric, Bool.or_eq_true] at start ⊢
    exact start.imp_left .inl
  have tail : (more ++ ' ' :: rest).takeWhile isWordPart = more := by
    rw [List.takeWhile_append_of_pos parts, List.takeWhile_cons_of_neg (by decide),
      List.append_nil]
  rw [piece_of_ne_slash (apart (by decide)), lexeme, isBlank_eq_false part,
    if_neg Bool.false_ne_true, noDigit, if_neg Bool.false_ne_true,
      if_neg (apart (by decide)),
    if_neg (apart (by decide)), if_pos start, tail]

/-- The decimal form of a number before a blank. -/
theorem piece_toDigits {value : Nat}
    (small : (value : Int) ≤ Extent.maxValue) {first : Char}
    {more : List Char} (split : Nat.toDigits 10 value = first :: more)
    (rest : List Char) :
    piece first (more ++ ' ' :: rest) = .ok ⟨some (.num value), more.length⟩ := by
  have digit : first.isDigit = true :=
    Nat.isDigit_of_mem_toDigits (by decide) (by decide) (split ▸ List.mem_cons_self)
  have printed : NumeralForm.decimal.print value = first :: more := split
  have letters := NumeralForm.forall_alphanumeric_print .decimal value
  have spells := NumeralForm.spells_print .decimal small
  rw [printed] at letters spells
  have run : Number.run (first :: (more ++ ' ' :: rest)) = first :: more := by
    rw [Number.run, ← List.cons_append, List.takeWhile_append_of_pos letters,
      List.takeWhile_cons_of_neg (by decide), List.append_nil]
  rw [← run] at spells
  rw [piece_of_spells digit spells, run]
  rfl

end Lexer

namespace Precedence.Lexeme

theorem isCut_name (word : Identifier) : (name word).IsCut := by
  obtain ⟨first, more, split⟩ := List.exists_cons_of_ne_nil word.ne_empty
  have isWord := word.isWord
  have noDigit : first.isDigit = false := word.noDigit first (by rw [split]; rfl)
  rw [split] at isWord
  have parts : ∀ char ∈ first :: more, Lexer.isWordPart char = true := by
    intro char member
    have := isWord char member
    simpa [Lexer.isWordPart, Number.isAlphanumeric, Char.isAlphanum] using this
  have start : Lexer.isWordStart first = true := by
    have := isWord first List.mem_cons_self
    simpa [Lexer.isWordStart, Char.isAlphanum, noDigit] using this
  have noBreak : '\n' ∉ first :: more := fun member => absurd (parts _ member) (by decide)
  refine ⟨first, more, split, noBreak, fun rest => ?_⟩
  have kind : Lexer.wordKind (String.ofList (first :: more)) = .identifier := by
    rw [← split, String.ofList_toList, Lexer.wordKind,
      if_neg (by simpa using word.notKeyword)]
  rw [Lexer.piece_word start
    (fun char member => parts char (List.mem_cons_of_mem _ member)) noDigit, kind]
  rfl

theorem isCut_number {value : Nat} (small : (value : Int) ≤ Extent.maxValue) :
    (number value).IsCut := by
  obtain ⟨first, more, split⟩ :=
    List.exists_cons_of_ne_nil (Nat.toDigits_ne_nil : Nat.toDigits 10 value ≠ [])
  have decimal : (number value).text.toList = first :: more := by
    rw [text, Nat.toString_eq_ofList_toDigits, String.toList_ofList, split]
  have noBreak : '\n' ∉ first :: more := by
    intro member
    rw [← split] at member
    exact absurd (Nat.isDigit_of_mem_toDigits (by decide) (by decide) member) (by decide)
  exact ⟨first, more, decimal, noBreak, Lexer.piece_toDigits small split⟩

end Precedence.Lexeme

/-! ## Texts -/

namespace Precedence

/-- The text of some lexemes, with a blank behind each. -/
def spelling (lexemes : List Lexeme) : List Char :=
  lexemes.flatMap fun lexeme => lexeme.text.toList ++ [' ']

/-- The tokens that lexemes become, from an offset on. -/
def written (line : Nat) : Nat -> List Lexeme -> List Token
  | _, [] => []
  | loc, lexeme :: rest =>
      ⟨lexeme.kind, lexeme.text, loc, line⟩ ::
        written line (loc + byteLength (lexeme.text.toList ++ [' '])) rest

theorem Lexeme.is_written (lexeme : Lexeme) (loc line : Nat) :
    (⟨lexeme.kind, lexeme.text, loc, line⟩ : Token).Is lexeme := by
  cases lexeme with
  | symbol text =>
      refine ⟨?_, rfl⟩
      change (if _ then _ else _) = _ ∨ (if _ then _ else _) = _
      split
      · exact .inr rfl
      · exact .inl rfl
  | name word => exact ⟨rfl, rfl⟩
  | number value => exact rfl

theorem length_written (line loc : Nat) (lexemes : List Lexeme) :
    (written line loc lexemes).length = lexemes.length := by
  induction lexemes generalizing loc with
  | nil => rfl
  | cons lexeme rest hypothesis =>
      rw [written, List.length_cons, hypothesis, List.length_cons]

/-- The tokens are written as the lexemes they are made from. -/
theorem shows_written {tokens : TokenStream} {line loc index : Nat}
    {lexemes : List Lexeme}
    (here : tokens.body.toList.drop index = written line loc lexemes) :
    tokens.Shows index lexemes := by
  induction lexemes generalizing loc index with
  | nil => trivial
  | cons lexeme rest hypothesis =>
      rw [written] at here
      have inside : index < tokens.last := by
        by_contra beyond
        rw [List.drop_eq_nil_of_le (Nat.le_of_not_lt beyond)] at here
        cases here
      rw [List.drop_eq_getElem_cons inside] at here
      obtain ⟨first, more⟩ := List.cons.inj here
      have found : tokens.get index = ⟨lexeme.kind, lexeme.text, loc, line⟩ := by
        rw [TokenStream.get, Array.getD, dif_pos (by exact inside)]
        exact first
      refine ⟨inside, ?_, hypothesis more⟩
      rw [found]
      exact lexeme.is_written loc line

end Precedence

namespace Lexer

open Precedence

/-- A lexeme and the blank behind it are cut off and leave a token. -/
theorem tokens_lexeme {lexeme : Lexeme} (isCut : lexeme.IsCut) {rest : List Char}
    {loc line : Nat} {following : List Token} {eof : Token}
    (behind : tokens rest (loc + byteLength (lexeme.text.toList ++ [' '])) line =
      .ok (following, eof)) :
    tokens (lexeme.text.toList ++ ' ' :: rest) loc line =
      .ok (⟨lexeme.kind, lexeme.text, loc, line⟩ :: following, eof) := by
  obtain ⟨first, more, split, noBreak, cut⟩ := isCut
  have word : String.ofList (first :: more) = lexeme.text := by
    rw [← split, String.ofList_toList]
  rw [split, byteLength_append, ← Nat.add_assoc] at behind
  rw [split, List.cons_append, tokens, cut]
  simp only [List.take_left, List.drop_left,
    List.count_eq_zero_of_not_mem noBreak, Nat.add_zero]
  rw [tokens_blank, behind, word]

/-- A text of lexemes is cut into their tokens. -/
theorem tokens_spelling {lexemes : List Lexeme} (cuts : ∀ lexeme ∈ lexemes, lexeme.IsCut)
    (loc line : Nat) :
    tokens (spelling lexemes) loc line =
      .ok (written line loc lexemes,
        ⟨.eof, "", loc + byteLength (spelling lexemes), line⟩) := by
  induction lexemes generalizing loc with
  | nil =>
      rw [spelling, List.flatMap_nil, tokens]
      rfl
  | cons lexeme rest hypothesis =>
      have behind := hypothesis
        (fun other member => cuts other (List.mem_cons_of_mem _ member))
        (loc + byteLength (lexeme.text.toList ++ [' ']))
      have text :
          spelling (lexeme :: rest) = lexeme.text.toList ++ ' ' :: spelling rest := by
        rw [spelling, List.flatMap_cons, List.append_assoc]
        rfl
      have length : byteLength (spelling (lexeme :: rest)) =
          byteLength (lexeme.text.toList ++ [' ']) + byteLength (spelling rest) := by
        rw [← byteLength_append, spelling, List.flatMap_cons]
        rfl
      rw [length, ← Nat.add_assoc, text]
      exact tokens_lexeme (cuts lexeme List.mem_cons_self) behind

end Lexer

namespace Precedence

variable {names : List Identifier}

theorem isCut_of_mem_definition (function : Identifier) (tree : Tree names) :
    ∀ lexeme ∈ definition function tree, lexeme.IsCut := by
  have symbols {text : String} (member : text ∈ definitionSymbols) :
      (Lexeme.symbol text).IsCut :=
    Lexeme.isCut_symbol text member
  have declarations : ∀ lexeme ∈ names.flatMap declaration, lexeme.IsCut := by
    intro lexeme member
    obtain ⟨name, -, inside⟩ := List.mem_flatMap.mp member
    simp only [declaration, List.mem_cons, List.not_mem_nil, or_false] at inside
    rcases inside with rfl | rfl | rfl
    · exact symbols (by decide)
    · exact Lexeme.isCut_name name
    · exact symbols (by decide)
  have expression : ∀ lexeme ∈ tree.print 0, lexeme.IsCut := by
    rw [Tree.print_of_le (Nat.zero_le _)]
    exact tree.forall_mem_bare
      (fun text member => symbols (List.mem_append_right _ member))
      Lexeme.isCut_name fun _ => Lexeme.isCut_number
  have closed :
      ∀ lexeme ∈ [Lexeme.symbol ";", .symbol Grammar.closeBrace], lexeme.IsCut := by
    simp only [List.forall_mem_cons]
    exact ⟨symbols (by decide), symbols (by decide), List.forall_mem_nil _⟩
  refine List.forall_mem_append.mpr ⟨?_, List.forall_mem_append.mpr
    ⟨declarations, List.forall_mem_append.mpr ⟨expression, closed⟩⟩⟩
  simp only [List.forall_mem_cons]
  exact ⟨symbols (by decide), Lexeme.isCut_name function, symbols (by decide),
    symbols (by decide), symbols (by decide), List.forall_mem_nil _⟩

/-- The text of a function that declares variables and evaluates a tree. -/
def definitionText (function : Identifier) (tree : Tree names) : String :=
  String.ofList (spelling (definition function tree))

/-- Cutting the text of a function gives the tokens of its lexemes.  The name of the
function stands behind the first type. -/
theorem tokenize_definitionText (title : String) (function : Identifier)
    (tree : Tree names) :
    ∃ tokens, tokenize ⟨title, definitionText function tree⟩ = .ok tokens ∧
      tokens.Spells (definition function tree) ∧ (tokens.get 1).loc = 4 := by
  let eof : Token := ⟨.eof, "", 0 + byteLength (spelling (definition function tree)), 1⟩
  refine ⟨⟨(written 1 0 (definition function tree)).toArray, eof⟩, ?_, ⟨?_, ?_, rfl⟩, ?_⟩
  · rw [tokenize, definitionText, String.toList_ofList,
      Lexer.tokens_spelling (isCut_of_mem_definition function tree)]
  · exact shows_written rfl
  · exact length_written 1 0 _
  · rfl

/-- Expressions are parsed as C orders its operators.  Written with the fewest
parentheses, as a statement of a function that declares its variables, every tree is
parsed into nodes that form this tree, with a conversion to `int` on the right of each
assignment.  A file is rejected only if its variables do not fit into a frame, and then at
the name of the function. -/
theorem parseFile_definitionText (title : String) (function : Identifier)
    (tree : Tree names) :
    if Extent.roundUp (4 * names.length) 16 ≤ Extent.maxInt32 then
      ∃ program, parseFile ⟨title, definitionText function tree⟩ = .ok program ∧
        program.Evaluates function tree
    else
      parseFile ⟨title, definitionText function tree⟩ =
        .error (.rejected (.typing .frameTooLarge) 4) := by
  obtain ⟨tokens, cut, spells, loc⟩ := tokenize_definitionText title function tree
  have parsed := parse_definition spells
  have unfolded : parseFile ⟨title, definitionText function tree⟩ = parse tokens := by
    rw [parseFile, cut]
    rfl
  rw [unfolded, ← loc]
  exact parsed

example :
    let tree : Tree [] := .unary .neg (.binary .sub (.literal 1 (by decide))
      (.binary .sub (.literal 2 (by decide)) (.literal 3 (by decide))))
    String.ofList (spelling (tree.print 0)) = "- ( 1 - ( 2 - 3 ) ) " := by
  decide

end Precedence

end MiniC
