import MiniC.Cause
import MiniC.Extent

/-!
# Number literals

The spelling of a number begins with a digit and extends over all letters and
digits that follow.  Its first characters choose the radix; the rest are its
digits, the most significant first.
-/

namespace MiniC
namespace Number

/-- Letters and digits of the basic alphabet. -/
def isAlphanumeric (char : Char) : Bool := char.isAlpha || char.isDigit

/-- The value of a digit in radices up to thirty-six. -/
def digitValue? (char : Char) : Option Nat :=
  if '0' ≤ char ∧ char ≤ '9' then some (char.toNat - '0'.toNat)
  else if 'a' ≤ char ∧ char ≤ 'z' then some (char.toNat - 'a'.toNat + 10)
  else if 'A' ≤ char ∧ char ≤ 'Z' then some (char.toNat - 'A'.toNat + 10)
  else none

/-- The value of a digit in the given radix. -/
def digitIn? (radix : Nat) (char : Char) : Option Nat :=
  (digitValue? char).filter (· < radix)

/-- How a spelling is read: its radix, and the number of characters of the mark
that announces the radix and is not itself a digit. -/
structure Reading where
  radix : Nat
  mark : Nat
  deriving DecidableEq

/-- The reading chosen by the text at a digit.  A radix mark counts only when
something follows it. -/
def reading : List Char -> Reading
  | '0' :: 'x' :: _ :: _ => ⟨16, 2⟩
  | '0' :: 'X' :: _ :: _ => ⟨16, 2⟩
  | '0' :: 'b' :: _ :: _ => ⟨2, 2⟩
  | '0' :: 'B' :: _ :: _ => ⟨2, 2⟩
  | '0' :: _ => ⟨8, 0⟩
  | _ => ⟨10, 0⟩

/-- Read digits after a value already read.  At each digit its validity is
decided before the size of the value. -/
def readDigits (radix : Nat) : List Char -> Nat -> Except NumberError Nat
  | [], value => .ok value
  | char :: rest, value =>
      match digitIn? radix char with
      | none => .error .invalidDigit
      | some digit =>
          if (value * radix + digit : Int) ≤ Extent.maxValue then
            readDigits radix rest (value * radix + digit)
          else
            .error .tooLarge

/-- The value of a sequence of digits. -/
def value (radix : Nat) (digits : List Char) : Except NumberError Nat :=
  if digits.isEmpty then .error .empty else readDigits radix digits 0

/-- Read the number at the front of a text that begins with a digit: its value
and the number of characters of its spelling. -/
def scan (text : List Char) : Except LexicalError (Int × Nat) :=
  let chosen := reading text
  let digits := (text.drop chosen.mark).takeWhile isAlphanumeric
  match value chosen.radix digits with
  | .ok value => .ok (value, chosen.mark + digits.length)
  | .error reason => .error (.invalidNumber reason)

end Number
end MiniC
