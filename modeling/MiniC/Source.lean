/-!
# Source files and positions

A source file is a text with a display name.  Places in the text are byte
offsets into its UTF-8 form; `SourceFile.position` resolves an offset to the
line that contains it and the number of characters before it on that line.
-/

namespace MiniC

/-- A source text together with the name shown for it. -/
structure SourceFile where
  name : String
  contents : String

/-- A place in a source file, with the line of text it lies on.  Lines count
from one and columns, in characters, from zero. -/
structure Position where
  file : String
  line : Nat
  column : Nat
  text : String
  deriving DecidableEq

/-- Number of bytes of the UTF-8 form of a text. -/
def byteLength : List Char -> Nat
  | [] => 0
  | char :: rest => char.utf8Size + byteLength rest

/-- Split a text after the characters that lie within its first `bytes` bytes. -/
def splitAtByte : List Char -> Nat -> List Char × List Char
  | [], _ => ([], [])
  | char :: rest, bytes =>
      if char.utf8Size ≤ bytes then
        let parts := splitAtByte rest (bytes - char.utf8Size)
        (char :: parts.1, parts.2)
      else
        ([], char :: rest)

/-- The part of a text after its last line break. -/
def lastLine (chars : List Char) : List Char :=
  (chars.reverse.takeWhile (· ≠ '\n')).reverse

/-- The part of a text before its first line break. -/
def firstLine (chars : List Char) : List Char :=
  chars.takeWhile (· ≠ '\n')

/-- Resolve a byte offset.  An offset beyond the end means the end. -/
def SourceFile.position (file : SourceFile) (loc : Nat) : Position :=
  let parts := splitAtByte file.contents.toList loc
  { file := file.name
    line := parts.1.count '\n' + 1
    column := (lastLine parts.1).length
    text := String.ofList (lastLine parts.1 ++ firstLine parts.2) }

namespace Position

/-- What stands before the quoted line. -/
def header (position : Position) : String :=
  position.file ++ ":" ++ toString position.line ++ ": "

/-- The quoted line, and under it a caret below the place. -/
def render (position : Position) : String :=
  let indent := position.header.length + position.column
  position.header ++ position.text ++ "\n"
    ++ String.ofList (List.replicate indent ' ') ++ "^"

end Position

@[simp] theorem byteLength_append (left right : List Char) :
    byteLength (left ++ right) = byteLength left + byteLength right := by
  induction left with
  | nil => simp [byteLength]
  | cons char rest hypothesis =>
      simp only [List.cons_append, byteLength, hypothesis]
      omega

end MiniC
