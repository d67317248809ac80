import MiniC.Cause

/-!
# String and character literals

Between quotes a character stands for its UTF-8 bytes, except that a backslash
begins an escape.  An octal escape has at most three digits, a hexadecimal one
any number, and both keep the low eight bits.  Any other escaped character
stands for a control code or for itself.

Offsets and lengths in this module count characters from the opening quote.
-/

namespace MiniC
namespace Quoted

/-- A lexical error at a number of characters from the start of its lexeme. -/
structure Failure where
  offset : Nat
  error : LexicalError
  deriving DecidableEq

/-- The value of an octal digit. -/
def octalDigit? (char : Char) : Option Nat :=
  if '0' ≤ char ∧ char ≤ '7' then some (char.toNat - '0'.toNat) else none

/-- The value of a hexadecimal digit. -/
def hexDigit? (char : Char) : Option Nat :=
  if '0' ≤ char ∧ char ≤ '9' then some (char.toNat - '0'.toNat)
  else if 'a' ≤ char ∧ char ≤ 'f' then some (char.toNat - 'a'.toNat + 10)
  else if 'A' ≤ char ∧ char ≤ 'F' then some (char.toNat - 'A'.toNat + 10)
  else none

/-- The values of the digits at the front of a text. -/
def leadingDigits (digit? : Char -> Option Nat) : List Char -> List Nat
  | [] => []
  | char :: rest =>
      match digit? char with
      | none => []
      | some digit => digit :: leadingDigits digit? rest

/-- The byte that digits denote: their value modulo 256. -/
def digitsByte (radix : Nat) (digits : List Nat) : UInt8 :=
  UInt8.ofNat (digits.foldl (fun value digit => value * radix + digit) 0)

/-- The control code of an escaped letter. -/
def controlCode? : Char -> Option UInt8
  | 'a' => some 7
  | 'b' => some 8
  | 't' => some 9
  | 'n' => some 10
  | 'v' => some 11
  | 'f' => some 12
  | 'r' => some 13
  | 'e' => some 27
  | _ => none

/-- Read the escape after a backslash: its bytes and its number of characters. -/
def escape : List Char -> Except LexicalError (List UInt8 × Nat)
  | [] => .error .endOfInput
  | char :: rest =>
      if (octalDigit? char).isSome then
        let digits := (leadingDigits octalDigit? (char :: rest)).take 3
        .ok ([digitsByte 8 digits], digits.length)
      else if char = 'x' then
        let digits := leadingDigits hexDigit? rest
        if digits.isEmpty then
          .error .invalidHexEscape
        else
          .ok ([digitsByte 16 digits], 1 + digits.length)
      else
        match controlCode? char with
        | some code => .ok ([code], 1)
        | none => .ok (String.utf8EncodeChar char, 1)

/-- Read a string after `seen` characters of its literal, up to the closing
quote: the bytes that remain, the final zero included, and the length of the
whole literal. -/
def stringRest (text : List Char) (seen : Nat) :
    Except Failure (List UInt8 × Nat) :=
  match text with
  | [] => .error ⟨0, .unclosedString⟩
  | char :: rest =>
      if char = '\n' then
        .error ⟨0, .unclosedString⟩
      else if char = '"' then
        .ok ([0], seen + 1)
      else if char = '\\' then
        match escape rest with
        | .error error => .error ⟨seen + 1, error⟩
        | .ok (bytes, length) =>
            match stringRest (rest.drop length) (seen + 1 + length) with
            | .error failure => .error failure
            | .ok (more, total) => .ok (bytes ++ more, total)
      else
        match stringRest rest (seen + 1) with
        | .error failure => .error failure
        | .ok (more, total) => .ok (String.utf8EncodeChar char ++ more, total)
termination_by text.length
decreasing_by
  all_goals
    simp only [List.length_cons, List.length_drop]
    omega

/-- Read a string literal from the text after its opening quote. -/
def string (text : List Char) : Except Failure (List UInt8 × Nat) :=
  stringRest text 1

/-- A byte as a signed number. -/
def signedByte (byte : UInt8) : Int :=
  if byte.toNat < 128 then byte.toNat else byte.toNat - 256

/-- The contents of a character literal: its bytes, its number of characters
and the text after it. -/
def characterContents :
    List Char -> Except Failure (List UInt8 × Nat × List Char)
  | [] => .error ⟨0, .unclosedCharacter⟩
  | char :: rest =>
      if char = '\n' then
        .error ⟨0, .unclosedCharacter⟩
      else if char = '\\' then
        match escape rest with
        | .error error => .error ⟨2, error⟩
        | .ok (bytes, length) => .ok (bytes, 1 + length, rest.drop length)
      else
        .ok (String.utf8EncodeChar char, 1, rest)

/-- Read a character literal from the text after its opening quote: its value
and the length of the whole literal.  Its contents have to be one byte. -/
def character (text : List Char) : Except Failure (Int × Nat) :=
  match characterContents text with
  | .error failure => .error failure
  | .ok ([byte], length, '\'' :: _) => .ok (signedByte byte, length + 2)
  | .ok _ => .error ⟨0, .unclosedCharacter⟩

end Quoted
end MiniC
