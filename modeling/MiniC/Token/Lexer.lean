import MiniC.Error
import MiniC.Token
import MiniC.Token.Number
import MiniC.Token.Quoted

/-!
# From text to tokens

The text is cut into pieces from left to right.  A piece is a blank, a comment
or the lexeme of a token, and is never empty.  Blanks and comments vanish; a
token keeps its byte offset and line.
-/

namespace MiniC
namespace Lexer

/-- Words that are not identifiers. -/
def keywords : List String :=
  ["return", "if", "else", "for", "while", "int", "sizeof", "char", "struct",
    "union", "short", "long", "void", "typedef", "_Bool", "enum", "static",
    "goto"]

/-- Punctuators of two characters. -/
def longPunctuators : List (Char × Char) :=
  [('=', '='), ('!', '='), ('<', '='), ('>', '='), ('-', '>'), ('&', '&'),
    ('|', '|')]

/-- The characters that separate tokens. -/
def isBlank (char : Char) : Bool :=
  char == ' ' || char == '\t' || char == '\n' || char == '\x0c' || char == '\r'

/-- The characters that may begin a word. -/
def isWordStart (char : Char) : Bool := char.isAlpha || char == '_'

/-- The characters that may continue a word. -/
def isWordPart (char : Char) : Bool := Number.isAlphanumeric char || char == '_'

/-- The printable characters of the basic alphabet that are neither letters,
digits nor the blank. -/
def isPunctuation (char : Char) : Bool :=
  '!' ≤ char && char ≤ '~' && !Number.isAlphanumeric char

/-- Number of characters up to and including the end of a comment. -/
def commentEnd? : List Char -> Option Nat
  | [] => none
  | '*' :: '/' :: _ => some 2
  | _ :: rest => (commentEnd? rest).map (· + 1)

/-- A piece of the text: the kind of its token, if it is one, and its number of
characters after the first. -/
structure Piece where
  kind : Option TokenKind
  more : Nat
  deriving DecidableEq

/-- A word is a keyword or an identifier. -/
def wordKind (word : String) : TokenKind :=
  if keywords.contains word then .keyword else .identifier

/-- Whether a character and the text after it begin with a punctuator of two
characters. -/
def startsLongPunctuator (char : Char) : List Char -> Bool
  | [] => false
  | next :: _ => longPunctuators.contains (char, next)

/-- The piece that begins with a character other than `/`. -/
def lexeme (char : Char) (rest : List Char) : Except Quoted.Failure Piece :=
  if isBlank char then
    .ok ⟨none, 0⟩
  else if char.isDigit then
    match Number.scan (char :: rest) with
    | .ok (value, length) => .ok ⟨some (.num value), length - 1⟩
    | .error error => .error ⟨0, error⟩
  else if char = '"' then
    match Quoted.string rest with
    | .ok (data, length) => .ok ⟨some (.str data), length - 1⟩
    | .error failure => .error failure
  else if char = '\'' then
    match Quoted.character rest with
    | .ok (value, length) => .ok ⟨some (.num value), length - 1⟩
    | .error failure => .error failure
  else if isWordStart char then
    let tail := rest.takeWhile isWordPart
    .ok ⟨some (wordKind (String.ofList (char :: tail))), tail.length⟩
  else if startsLongPunctuator char rest then
    .ok ⟨some .punctuator, 1⟩
  else if isPunctuation char then
    .ok ⟨some .punctuator, 0⟩
  else
    .error ⟨0, .invalidCharacter char⟩

/-- The piece at the front of a text.  A comment runs to the end of its line or
to its closing mark. -/
def piece (char : Char) (rest : List Char) : Except Quoted.Failure Piece :=
  match char, rest with
  | '/', '/' :: text => .ok ⟨none, 1 + (firstLine text).length⟩
  | '/', '*' :: text =>
      match commentEnd? text with
      | some length => .ok ⟨none, 1 + length⟩
      | none => .error ⟨0, .unclosedComment⟩
  | _, _ => lexeme char rest

/-- Cut a text that begins at the given offset and line into its tokens and the
end-of-file token. -/
def tokens (text : List Char) (loc line : Nat) :
    Except Error (List Token × Token) :=
  match text with
  | [] => .ok ([], ⟨.eof, "", loc, line⟩)
  | char :: rest =>
      match piece char rest with
      | .error failure =>
          .error (.rejected (.lexical failure.error)
            (loc + byteLength ((char :: rest).take failure.offset)))
      | .ok found =>
          let cut := char :: rest.take found.more
          match tokens (rest.drop found.more) (loc + byteLength cut)
              (line + cut.count '\n') with
          | .error error => .error error
          | .ok (following, eof) =>
              match found.kind with
              | none => .ok (following, eof)
              | some kind =>
                  .ok (⟨kind, String.ofList cut, loc, line⟩ :: following, eof)
termination_by text.length
decreasing_by
  simp only [List.length_cons, List.length_drop]
  omega

end Lexer

/-- The tokens of a source file. -/
def tokenize (file : SourceFile) : Except Error TokenStream :=
  match Lexer.tokens file.contents.toList 0 1 with
  | .error error => .error error
  | .ok (body, eof) => .ok ⟨body.toArray, eof⟩

end MiniC
