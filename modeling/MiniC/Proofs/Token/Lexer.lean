import Mathlib.Data.List.TakeWhile
import MiniC.Proofs.Grammar.Meets
import MiniC.Token.Lexer

/-!
# Every text is cut or rejected

Cutting a text gives tokens that stand in it where they say, or an error at an offset
between two of its characters.  The numbers of the tokens have negatives in the range of a
signed word, and identifiers have no dot.
-/

namespace MiniC

/-- A byte offset between two characters of a text. -/
def IsBoundary (text : List Char) (loc : Nat) : Prop :=
  ∃ before after, text = before ++ after ∧ loc = byteLength before

/-- A token that stands in a text at its offset. -/
def Token.StandsIn (token : Token) (text : List Char) : Prop :=
  ∃ before after, text = before ++ token.text.toList ++ after ∧ token.loc =
    byteLength before

theorem Token.StandsIn.isBoundary {token : Token} {text : List Char}
    (stands : token.StandsIn text) : IsBoundary text token.loc := by
  obtain ⟨before, after, split, loc⟩ := stands
  exact ⟨before, token.text.toList ++ after, by rw [split, List.append_assoc], loc⟩

/-- Numbers that can be negated in the range of a signed word. -/
def Negatable (value : Int) : Prop := Extent.InRange value ∧ Extent.InRange (-value)

/-! ## Numbers -/

namespace Number

theorem readDigits_le {radix : Nat} {digits : List Char} {start result : Nat}
    (read : readDigits radix digits start = .ok result)
    (small : (start : Int) ≤ Extent.maxValue) : (result : Int) ≤ Extent.maxValue := by
  induction digits generalizing start with
  | nil =>
      obtain rfl : start = result := by simpa [readDigits] using read
      exact small
  | cons char rest hypothesis =>
      unfold readDigits at read
      split at read
      · cases read
      · split at read
        · rename_i below
          exact hypothesis read (by exact_mod_cast below)
        · cases read

theorem scan_negatable {text : List Char} {value : Int} {length : Nat}
    (scanned : scan text = .ok (value, length)) : Negatable value := by
  unfold scan at scanned
  dsimp only at scanned
  split at scanned
  · rename_i found known
    obtain ⟨rfl, _⟩ : (found : Int) = value ∧ _ = length := by simpa using scanned
    unfold Number.value at known
    split at known
    · cases known
    · have small := readDigits_le known (by decide)
      unfold Negatable Extent.InRange Extent.minValue Extent.maxValue at *
      omega
  · cases scanned

end Number

namespace Quoted

theorem character_negatable {text : List Char} {value : Int} {length : Nat}
    (read : character text = .ok (value, length)) : Negatable value := by
  unfold character at read
  split at read
  · cases read
  · rename_i byte _ _ _
    obtain ⟨rfl, _⟩ : signedByte byte = value ∧ _ = length := by simpa using read
    have bound : byte.toNat < 256 := byte.toNat_lt
    unfold signedByte Negatable Extent.InRange Extent.minValue Extent.maxValue
    split <;> omega
  · cases read

end Quoted

/-! ## Tokens -/

namespace Lexer

/-- A character that begins neither a blank nor a literal. -/
structure IsPlain (char : Char) : Prop where
  noBlank : isBlank char = false
  noDigit : char.isDigit = false
  noString : char ≠ '"'
  noCharacter : char ≠ '\''

/-- The ways in which a text begins with a lexeme. -/
inductive Lexes (char : Char) (rest : List Char) : Piece -> Prop
  | blank (isBlank : isBlank char = true) : Lexes char rest ⟨none, 0⟩
  | number {value : Int} {length : Nat}
      (noBlank : isBlank char = false)
      (digit : char.isDigit = true)
      (scanned : Number.scan (char :: rest) = .ok (value, length)) :
      Lexes char rest ⟨some (.num value), length - 1⟩
  | string {data : List UInt8} {length : Nat}
      (quote : char = '"')
      (read : Quoted.string rest = .ok (data, length)) :
      Lexes char rest ⟨some (.str data), length - 1⟩
  | character {value : Int} {length : Nat}
      (quote : char = '\'')
      (read : Quoted.character rest = .ok (value, length)) :
      Lexes char rest ⟨some (.num value), length - 1⟩
  | word
      (plain : IsPlain char)
      (start : isWordStart char = true) :
      Lexes char rest
        ⟨some (wordKind (String.ofList (char :: rest.takeWhile isWordPart))),
          (rest.takeWhile isWordPart).length⟩
  | long
      (plain : IsPlain char)
      (noWord : isWordStart char = false)
      (punctuator : startsLongPunctuator char rest = true) :
      Lexes char rest ⟨some .punctuator, 1⟩
  | short
      (plain : IsPlain char)
      (noWord : isWordStart char = false)
      (noLong : startsLongPunctuator char rest = false)
      (punctuation : isPunctuation char = true) :
      Lexes char rest ⟨some .punctuator, 0⟩

theorem lexeme_eq_ok {char : Char} {rest : List Char} {found : Piece} :
    lexeme char rest = .ok found ↔ Lexes char rest found := by
  constructor
  · intro cut
    unfold lexeme at cut
    split at cut
    · cases cut
      exact .blank ‹_›
    rename_i noBlank
    rw [Bool.not_eq_true] at noBlank
    split at cut
    · split at cut <;> cases cut
      exact .number noBlank ‹_› ‹_›
    rename_i noDigit
    rw [Bool.not_eq_true] at noDigit
    split at cut
    · split at cut <;> cases cut
      exact .string ‹_› ‹_›
    rename_i noString
    split at cut
    · split at cut <;> cases cut
      exact .character ‹_› ‹_›
    rename_i noCharacter
    have plain : IsPlain char := ⟨noBlank, noDigit, noString, noCharacter⟩
    split at cut
    · cases cut
      exact .word plain ‹_›
    rename_i noWord
    rw [Bool.not_eq_true] at noWord
    split at cut
    · cases cut
      exact .long plain noWord ‹_›
    rename_i noLong
    rw [Bool.not_eq_true] at noLong
    split at cut <;> cases cut
    exact .short plain noWord noLong ‹_›
  · intro lexes
    unfold lexeme
    cases lexes with
    | blank isBlank => simp [isBlank]
    | number noBlank digit scanned => simp [noBlank, digit, scanned]
    | string quote read =>
        subst quote
        have apart : isBlank '"' = false ∧ '"'.isDigit = false := by decide
        simp [apart, read]
    | character quote read =>
        subst quote
        have apart : isBlank '\'' = false ∧ '\''.isDigit = false := by decide
        simp [apart, read]
    | word plain start =>
        simp [plain.noBlank, plain.noDigit, plain.noString, plain.noCharacter, start]
    | long plain noWord punctuator =>
        simp [plain.noBlank, plain.noDigit, plain.noString, plain.noCharacter,
          noWord, punctuator]
    | short plain noWord noLong punctuation =>
        simp [plain.noBlank, plain.noDigit, plain.noString, plain.noCharacter,
          noWord, noLong, punctuation]

theorem piece_of_ne_slash {first : Char} (other : first ≠ '/') (rest : List Char) :
    piece first rest = lexeme first rest := by
  unfold piece
  split
  · exact absurd rfl other
  · exact absurd rfl other
  · rfl

/-- A piece that is a token is a lexeme: comments leave none. -/
theorem lexeme_of_piece {char : Char} {rest : List Char} {found : Piece}
    {kind : TokenKind}
    (cut : piece char rest = .ok found) (token : found.kind = some kind) :
    lexeme char rest = .ok found := by
  unfold piece at cut
  split at cut
  · cases cut
    cases token
  · split at cut <;> cases cut
    cases token
  · exact cut

/-- The number of a lexeme can be negated. -/
theorem lexeme_negatable {char : Char} {rest : List Char} {found : Piece} {value : Int}
    (cut : lexeme char rest = .ok found) (number : found.kind = some (.num value)) :
    Negatable value := by
  cases lexeme_eq_ok.mp cut with
  | number _ _ scanned =>
      cases number
      exact Number.scan_negatable scanned
  | character _ read =>
      cases number
      exact Quoted.character_negatable read
  | word plain start =>
      unfold wordKind at number
      split at number <;> cases number
  | _ => cases number

theorem piece_negatable {char : Char} {rest : List Char} {found : Piece} {value : Int}
    (cut : piece char rest = .ok found) (number : found.kind = some (.num value)) :
    Negatable value :=
  lexeme_negatable (lexeme_of_piece cut number) number

/-- A word has no dot. -/
theorem undotted_word {char : Char} (start : isWordStart char = true) (rest : List Char) :
    Undotted (String.ofList (char :: rest.take (rest.takeWhile isWordPart).length)) := by
  have tail : rest.take (rest.takeWhile isWordPart).length = rest.takeWhile isWordPart :=
    (List.prefix_iff_eq_take.mp (List.takeWhile_prefix isWordPart)).symm
  rw [tail]
  intro member
  rw [String.toList_ofList, List.mem_cons] at member
  rcases member with rfl | later
  · exact absurd start (by decide)
  · exact absurd (List.mem_takeWhile_imp later) (by decide)

/-- The lexeme of an identifier is a word. -/
theorem lexeme_undotted {char : Char} {rest : List Char} {found : Piece}
    (cut : lexeme char rest = .ok found) (identifier : found.kind = some .identifier) :
    Undotted (String.ofList (char :: rest.take found.more)) := by
  cases lexeme_eq_ok.mp cut with
  | word plain start => exact undotted_word start rest
  | _ => cases identifier

theorem piece_undotted {char : Char} {rest : List Char} {found : Piece}
    (cut : piece char rest = .ok found) (identifier : found.kind = some .identifier) :
    Undotted (String.ofList (char :: rest.take found.more)) :=
  lexeme_undotted (lexeme_of_piece cut identifier) identifier

/-- A blank is cut off and leaves no token. -/
theorem tokens_blank (rest : List Char) (loc line : Nat) :
    tokens (' ' :: rest) loc line = tokens rest (loc + byteLength [' ']) line := by
  rw [tokens, show piece ' ' rest = .ok ⟨none, 0⟩ from rfl]
  simp only [List.take_zero, List.drop_zero]
  rw [show line + List.count '\n' [' '] = line from rfl]
  cases tokens rest (loc + byteLength [' ']) line <;> rfl

/-- What the tokens of a text keep, as part of a whole text. -/
structure Cut (whole : List Char) (following : List Token) (eof : Token) : Prop where
  stands : ∀ token ∈ following, token.StandsIn whole
  numbers : ∀ token ∈ following, ∀ value, token.kind = .num value -> Negatable value
  identifiers : ∀ token ∈ following, token.kind = .identifier -> Undotted token.text
  ended : eof.kind = .eof
  last : eof.StandsIn whole

theorem Cut.cons {whole : List Char} {token eof : Token} {following : List Token}
    (kept : Cut whole following eof) (stands : token.StandsIn whole)
    (number : ∀ value, token.kind = .num value -> Negatable value)
    (identifier : token.kind = .identifier -> Undotted token.text) :
    Cut whole (token :: following) eof where
  stands := by
    intro other member
    rcases List.mem_cons.mp member with rfl | later
    · exact stands
    · exact kept.stands other later
  numbers := by
    intro other member
    rcases List.mem_cons.mp member with rfl | later
    · exact number
    · exact kept.numbers other later
  identifiers := by
    intro other member
    rcases List.mem_cons.mp member with rfl | later
    · exact identifier
    · exact kept.identifiers other later
  ended := kept.ended
  last := kept.last

/-- The rest of a text is cut into tokens, or rejected between two characters. -/
theorem tokens_cases {whole before text : List Char} {loc line : Nat}
    (split : whole = before ++ text) (place : loc = byteLength before) :
    (∃ following eof, tokens text loc line = .ok (following, eof) ∧
      Cut whole following eof) ∨
      ∃ cause offset, tokens text loc line = .error (.rejected cause offset) ∧
        IsBoundary whole offset := by
  induction size : text.length using Nat.strongRecOn generalizing before
    text loc line with
  | ind count hypothesis =>
  cases text with
  | nil =>
      rw [tokens]
      refine .inl ⟨[], ⟨.eof, "", loc, line⟩, rfl, by simp, by simp, by simp, rfl,
        before, [], ?_, place⟩
      simpa using split
  | cons char rest =>
      rw [tokens]
      cases cut : piece char rest with
      | error failure =>
          have cutAt : whole = (before ++ (char :: rest).take failure.offset) ++
              (char :: rest).drop failure.offset := by
            rw [split, List.append_assoc, List.take_append_drop]
          refine .inr ⟨.lexical failure.error, _, rfl, _, _, cutAt, ?_⟩
          rw [byteLength_append, place]
      | ok found =>
          have cutAt : whole = (before ++ char :: rest.take found.more) ++
              rest.drop found.more := by
            rw [split, List.append_assoc, List.cons_append, List.take_append_drop]
          have shorter : (rest.drop found.more).length < count := by
            rw [← size, List.length_drop, List.length_cons]
            omega
          have placed : loc + byteLength (char :: rest.take found.more) =
              byteLength (before ++ char :: rest.take found.more) := by
            rw [byteLength_append, place]
          dsimp only
          rcases hypothesis _ shorter cutAt placed rfl with
            ⟨following, eof, known, kept⟩ | ⟨cause, offset, failed, boundary⟩
          · rw [known]
            dsimp only
            cases kind : found.kind with
            | none => exact .inl ⟨following, eof, rfl, kept⟩
            | some kind =>
                refine .inl ⟨_, eof, rfl, kept.cons ?_ ?_ ?_⟩
                · refine ⟨before, rest.drop found.more, ?_, place⟩
                  simpa using cutAt
                · rintro value rfl
                  exact piece_negatable cut ‹_›
                · rintro rfl
                  exact piece_undotted cut ‹_›
          · rw [failed]
            exact .inr ⟨cause, offset, rfl, boundary⟩

end Lexer

/-- A source file is cut into tokens that stand in it, or rejected between two of its
characters. -/
theorem tokenize_cases (file : SourceFile) :
    (∃ tokens, tokenize file = .ok tokens ∧ tokens.Sound ∧
      ∀ index, (tokens.get index).StandsIn file.contents.toList) ∨
    ∃ cause loc, tokenize file = .error (.rejected cause loc) ∧
      IsBoundary file.contents.toList loc := by
  unfold tokenize
  have start : file.contents.toList = [] ++ file.contents.toList := rfl
  have outcome : (∃ following eof, Lexer.tokens file.contents.toList 0 1 =
      .ok (following, eof) ∧
      Lexer.Cut file.contents.toList following eof) ∨ _ := Lexer.tokens_cases start rfl
  rcases outcome with ⟨following, eof, known, kept⟩ | ⟨cause, loc, failed, boundary⟩
  · rw [known]
    have get_cases (index : Nat) :
        (TokenStream.mk following.toArray eof).get index ∈ following ∨
          (TokenStream.mk following.toArray eof).get index = eof := by
      by_cases inside : index < following.length
      · exact .inl (by simp [TokenStream.get, Array.getD, inside])
      · exact .inr (TokenStream.get_of_last_le (Nat.le_of_not_lt inside))
    refine .inl ⟨⟨following.toArray, eof⟩, rfl, ⟨kept.ended, ?_, ?_⟩, ?_⟩
    · intro index value number
      rcases get_cases index with member | last
      · exact kept.numbers _ member value number
      · rw [last, kept.ended] at number
        cases number
    · intro index identifier
      rcases get_cases index with member | last
      · exact kept.identifiers _ member identifier
      · rw [last, kept.ended] at identifier
        cases identifier
    · intro index
      rcases get_cases index with member | last
      · exact kept.stands _ member
      · rw [last]
        exact kept.last
  · rw [failed]
    exact .inr ⟨cause, loc, rfl, boundary⟩

end MiniC
