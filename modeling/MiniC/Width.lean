/-!
# Widths of machine values

A value occupies one, two, four or eight bytes.
-/

namespace MiniC

/-- The widths at which a value can be moved. -/
inductive Width
  | byte
  | word
  | dword
  | qword
  deriving DecidableEq

namespace Width

/-- Position of a width in the order of widths. -/
def rank : Width -> Nat
  | byte => 0
  | word => 1
  | dword => 2
  | qword => 3

/-- Number of bytes of a width. -/
def bytes : Width -> Nat
  | byte => 1
  | word => 2
  | dword => 4
  | qword => 8

/-- The width at which an object of the given size is moved.  A size that is
not a width is moved as a full word. -/
def ofSize (size : Int) : Width :=
  if size = 1 then byte
  else if size = 2 then word
  else if size = 4 then dword
  else qword

end Width
end MiniC
