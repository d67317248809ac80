import Mathlib.Algebra.Ring.Int.Defs
import Mathlib.Algebra.Ring.Nat
import MiniC.Program
import MiniC.Proofs.Result

/-!
# The meaning of integer expressions

Expressions over variables of the five integer types, as trees, and their values.  Narrow
operands are promoted to `int`, or to `long` next to a `long`; results wrap around at the
width of their type; quotients are cut toward zero; and a value that is cast or assigned
is converted to its new type.

Variables hold whatever fits their width.  So a `_Bool` that was never assigned may hold
any byte, while every value converted to `_Bool` is zero or one.
-/

namespace MiniC
namespace Semantics

/-! ## Types and values -/

/-- A truth value as a number. -/
def truth (holds : Bool) : Int := if holds then 1 else 0

/-- The integer types. -/
inductive IntTy
  | bool
  | char
  | short
  | int
  | long
  deriving DecidableEq

namespace IntTy

/-- The width of an integer type. -/
def width : IntTy -> Width
  | bool | char => .byte
  | short => .word
  | int => .dword
  | long => .qword

/-- A number brought to the width of a type: two's complement of as many bits. -/
def wrap (ty : IntTy) (value : Int) : Int := value.bmod (2 ^ (8 * ty.width.bytes))

/-- A number converted to a type. -/
def convert (ty : IntTy) (value : Int) : Int :=
  match ty with
  | bool => truth (value ≠ 0)
  | _ => ty.wrap value

/-- The type of arithmetic on operands of two types. -/
def join (left right : IntTy) : IntTy := if left = long ∨ right = long then long else int

/-- The type of a literal. -/
def ofLiteral (value : Int) : IntTy := if Extent.FitsInt32 value then int else long

/-- A number that an object of a type can hold. -/
def Fits (ty : IntTy) (value : Int) : Prop := ty.wrap value = value

instance (ty : IntTy) (value : Int) : Decidable (ty.Fits value) :=
  inferInstanceAs (Decidable (_ = _))

/-- Arithmetic has no result of type `_Bool`. -/
theorem join_ne_bool (left right : IntTy) : join left right ≠ bool := by
  cases left <;> cases right <;> decide

end IntTy

/-- What ends an evaluation without a value. -/
inductive Trap
  | zeroDivisor
  | quotientOverflow
  deriving DecidableEq

/-- The quotient, cut toward zero, and the remainder of a division.  There is none by
zero, and none if the quotient is too large for `long`. -/
def divide (left right : Int) : Except Trap (Int × Int) :=
  if right = 0 then .error .zeroDivisor
  else if left = Extent.minValue ∧ right = -1 then .error .quotientOverflow
  else .ok (left.tdiv right, left.tmod right)

/-- The value of an operator on one operand, at the type of the result. -/
def unaryValue (ty : IntTy) (operand : Int) : UnaryOp -> Int
  | .neg => ty.wrap (-operand)
  | .bitNot => ty.wrap (-operand - 1)
  | .not => truth (operand = 0)

/-- The value of an operator on two operands, at the type of the result. -/
def binaryValue (ty : IntTy) (left right : Int) : BinaryOp -> Except Trap Int
  | .add => .ok (ty.wrap (left + right))
  | .sub => .ok (ty.wrap (left - right))
  | .mul => .ok (ty.wrap (left * right))
  | .div => (divide left right).map fun result => ty.wrap result.1
  | .mod => (divide left right).map fun result => ty.wrap result.2
  | .eq => .ok (truth (left = right))
  | .ne => .ok (truth (left ≠ right))
  | .lt => .ok (truth (left < right))
  | .le => .ok (truth (left ≤ right))
  | .gt => .ok (truth (right < left))
  | .ge => .ok (truth (right ≤ left))
  | .logAnd => .ok (truth (left ≠ 0 ∧ right ≠ 0))
  | .logOr => .ok (truth (left ≠ 0 ∨ right ≠ 0))

/-! ## Expressions -/

/-- A variable with its type. -/
structure Variable where
  id : SymbolId
  ty : IntTy
  deriving DecidableEq

/-- Integer expressions. -/
inductive Expr
  | literal (value : Int)
  | var (target : Variable)
  | cast (ty : IntTy) (operand : Expr)
  | unary (op : UnaryOp) (operand : Expr)
  | binary (op : BinaryOp) (lhs rhs : Expr)
  | comma (lhs rhs : Expr)
  | assign (target : Variable) (value : Expr)
  deriving DecidableEq

/-- The numbers that variables hold. -/
abbrev Store := SymbolId -> Int

namespace Store

/-- The store with another number in a variable. -/
def set (store : Store) (id : SymbolId) (value : Int) : Store :=
  fun other => if other = id then value else store other

/-- Every one of the given variables holds a number of its type. -/
def Fits (store : Store) (tracked : Variable -> Prop) : Prop :=
  ∀ target, tracked target -> target.ty.Fits (store target.id)

end Store

namespace Expr

/-- The type of an expression. -/
def ty : Expr -> IntTy
  | literal value => .ofLiteral value
  | var target => target.ty
  | cast ty _ => ty
  | unary .not _ => .int
  | unary _ operand => .join operand.ty operand.ty
  | binary op lhs rhs => if op.isTruth then .int else .join lhs.ty rhs.ty
  | comma _ rhs => rhs.ty
  | assign target _ => target.ty

/-- The variables of an expression. -/
def vars : Expr -> List Variable
  | literal _ => []
  | var target => [target]
  | cast _ operand | unary _ operand => operand.vars
  | binary _ lhs rhs | comma lhs rhs => lhs.vars ++ rhs.vars
  | assign target value => target :: value.vars

/-- The value of an expression and the store after it, operands from left to right.  The
right operand of `&&` and `||` is evaluated only if the left one leaves the result
open. -/
def eval (store : Store) : Expr -> Except Trap (Int × Store)
  | literal value => .ok ((IntTy.ofLiteral value).wrap value, store)
  | var target => .ok (store target.id, store)
  | cast ty operand => do
      let (value, after) ← operand.eval store
      return (ty.convert value, after)
  | unary op operand => do
      let (value, after) ← operand.eval store
      return (unaryValue (unary op operand).ty value op, after)
  | binary .logAnd lhs rhs => do
      let (left, middle) ← lhs.eval store
      if left = 0 then
        return (0, middle)
      else
        let (right, after) ← rhs.eval middle
        return (truth (right ≠ 0), after)
  | binary .logOr lhs rhs => do
      let (left, middle) ← lhs.eval store
      if left = 0 then
        let (right, after) ← rhs.eval middle
        return (truth (right ≠ 0), after)
      else
        return (1, middle)
  | binary op lhs rhs => do
      let (left, middle) ← lhs.eval store
      let (right, after) ← rhs.eval middle
      return (← binaryValue (binary op lhs rhs).ty left right op, after)
  | comma lhs rhs => do
      let (_, middle) ← lhs.eval store
      rhs.eval middle
  | assign target value => do
      let (given, middle) ← value.eval store
      let converted := target.ty.convert given
      return (converted, middle.set target.id converted)

/-- Number of words that the evaluation of an expression needs on a stack. -/
def words : Expr -> Nat
  | literal _ | var _ => 1
  | cast _ operand | unary _ operand => operand.words
  | binary .logAnd lhs rhs | binary .logOr lhs rhs | comma lhs rhs =>
      max lhs.words rhs.words
  | binary _ lhs rhs => max lhs.words (1 + rhs.words)
  | assign _ value => 1 + value.words

theorem words_pos (expr : Expr) : 1 ≤ expr.words := by
  induction expr with
  | literal value | var target => exact Nat.le_refl 1
  | cast ty operand hypothesis | unary op operand hypothesis => exact hypothesis
  | binary op lhs rhs left right =>
      cases op <;> exact Nat.le_trans left (Nat.le_max_left _ _)
  | comma lhs rhs left right => exact Nat.le_trans left (Nat.le_max_left _ _)
  | assign target value hypothesis => exact Nat.le_add_right 1 _

theorem words_lhs (op : BinaryOp) (lhs rhs : Expr) :
    lhs.words ≤ (binary op lhs rhs).words := by
  cases op <;> exact Nat.le_max_left _ _

theorem words_rhs (op : BinaryOp) (lhs rhs : Expr) :
    rhs.words ≤ (binary op lhs rhs).words := by
  cases op <;> simp only [words] <;> omega

/-- The left operand waits on the stack while the right one is evaluated. -/
theorem one_add_words_rhs {op : BinaryOp} (lhs rhs : Expr) (notAnd : op ≠ .logAnd)
    (notOr : op ≠ .logOr) : 1 + rhs.words ≤ (binary op lhs rhs).words := by
  cases op with
  | logAnd => exact absurd rfl notAnd
  | logOr => exact absurd rfl notOr
  | _ => exact Nat.le_max_right _ _

theorem unary_ty_ne_bool {op : UnaryOp} (operand : Expr) (arithmetic : op ≠ .not) :
    (unary op operand).ty ≠ .bool := by
  cases op with
  | not => exact absurd rfl arithmetic
  | neg | bitNot => exact IntTy.join_ne_bool _ _

theorem binary_ty_ne_bool {op : BinaryOp} (lhs rhs : Expr) :
    (binary op lhs rhs).ty ≠ .bool := by
  unfold ty
  split
  · decide
  · exact IntTy.join_ne_bool _ _

end Expr

/-! ## Evaluation by rules -/

/-- The ways in which an expression gets a value. -/
inductive Evaluates : Expr -> Store -> Int -> Store -> Prop
  | literal {value store} :
      Evaluates (.literal value) store ((IntTy.ofLiteral value).wrap value) store
  | var {target store} : Evaluates (.var target) store (store target.id) store
  | cast {ty operand store value after}
      (inner : Evaluates operand store value after) :
      Evaluates (.cast ty operand) store (ty.convert value) after
  | unary {op operand store value after}
      (inner : Evaluates operand store value after) :
      Evaluates (.unary op operand) store
        (unaryValue (Expr.unary op operand).ty value op) after
  | andFalse {lhs rhs store after}
      (first : Evaluates lhs store 0 after) :
      Evaluates (.binary .logAnd lhs rhs) store 0 after
  | andTrue {lhs rhs store left middle right after}
      (first : Evaluates lhs store left middle)
      (nonzero : left ≠ 0)
      (second : Evaluates rhs middle right after) :
      Evaluates (.binary .logAnd lhs rhs) store (truth (right ≠ 0)) after
  | orTrue {lhs rhs store left after}
      (first : Evaluates lhs store left after)
      (nonzero : left ≠ 0) :
      Evaluates (.binary .logOr lhs rhs) store 1 after
  | orFalse {lhs rhs store middle right after}
      (first : Evaluates lhs store 0 middle)
      (second : Evaluates rhs middle right after) :
      Evaluates (.binary .logOr lhs rhs) store (truth (right ≠ 0)) after
  | binary {op lhs rhs store left middle right after value}
      (notAnd : op ≠ .logAnd)
      (notOr : op ≠ .logOr)
      (first : Evaluates lhs store left middle)
      (second : Evaluates rhs middle right after)
      (result : binaryValue (Expr.binary op lhs rhs).ty left right op = .ok value) :
      Evaluates (.binary op lhs rhs) store value after
  | comma {lhs rhs store left middle right after}
      (first : Evaluates lhs store left middle)
      (second : Evaluates rhs middle right after) :
      Evaluates (.comma lhs rhs) store right after
  | assign {target value store given after}
      (inner : Evaluates value store given after) :
      Evaluates (.assign target value) store (target.ty.convert given)
        (after.set target.id (target.ty.convert given))

/-- What is evaluated gets its value by the rules. -/
theorem Evaluates.of_eval {expr : Expr} {store after : Store} {value : Int}
    (evaluated : expr.eval store = .ok (value, after)) :
    Evaluates expr store value after := by
  induction expr generalizing store value after with
  | literal number =>
      cases evaluated
      exact .literal
  | var target =>
      cases evaluated
      exact .var
  | cast ty operand hypothesis =>
      obtain ⟨⟨given, last⟩, inner, rest⟩ := bind_eq_ok.mp evaluated
      cases rest
      exact .cast (hypothesis inner)
  | unary op operand hypothesis =>
      obtain ⟨⟨given, last⟩, inner, rest⟩ := bind_eq_ok.mp evaluated
      cases rest
      exact .unary (hypothesis inner)
  | binary op lhs rhs left right =>
      by_cases isAnd : op = .logAnd
      · subst isAnd
        obtain ⟨⟨given, middle⟩, first, rest⟩ := bind_eq_ok.mp evaluated
        dsimp only at rest
        split at rest
        · rename_i zero
          cases rest
          exact .andFalse (left (zero ▸ first))
        · obtain ⟨⟨other, last⟩, second, rest⟩ := bind_eq_ok.mp rest
          cases rest
          exact .andTrue (left first) ‹_› (right second)
      · by_cases isOr : op = .logOr
        · subst isOr
          obtain ⟨⟨given, middle⟩, first, rest⟩ := bind_eq_ok.mp evaluated
          dsimp only at rest
          split at rest
          · rename_i zero
            obtain ⟨⟨other, last⟩, second, rest⟩ := bind_eq_ok.mp rest
            cases rest
            exact .orFalse (left (zero ▸ first)) (right second)
          · cases rest
            exact .orTrue (left first) ‹_›
        · rw [Expr.eval] at evaluated
          · obtain ⟨⟨given, middle⟩, first, rest⟩ := bind_eq_ok.mp evaluated
            obtain ⟨⟨other, last⟩, second, rest⟩ := bind_eq_ok.mp rest
            obtain ⟨result, known, rest⟩ := bind_eq_ok.mp rest
            cases rest
            exact .binary isAnd isOr (left first) (right second) known
          · exact isAnd
          · exact isOr
  | comma lhs rhs left right =>
      obtain ⟨⟨given, middle⟩, first, second⟩ := bind_eq_ok.mp evaluated
      exact .comma (left first) (right second)
  | assign target operand hypothesis =>
      obtain ⟨⟨given, last⟩, inner, rest⟩ := bind_eq_ok.mp evaluated
      cases rest
      exact .assign (hypothesis inner)

/-! ## Values fit their types -/

namespace IntTy

variable {ty : IntTy} {value : Int}

theorem fits_wrap (ty : IntTy) (value : Int) : ty.Fits (ty.wrap value) := by
  unfold Fits wrap
  rw [Int.bmod_bmod]

/-- What fits a type fits every wider type. -/
theorem Fits.mono {wider : IntTy} (fits : ty.Fits value)
    (wide : ty.width.rank ≤ wider.width.rank) : wider.Fits value := by
  unfold Fits wrap at *
  rw [Int.bmod_def] at fits ⊢
  cases ty <;> cases wider <;>
    simp only [width, Width.rank, Width.bytes] at wide fits ⊢ <;> omega

theorem Fits.long (fits : ty.Fits value) : IntTy.long.Fits value :=
  fits.mono (by cases ty <;> decide)

/-- What fits a type lies between the least and the largest number of a word. -/
theorem Fits.bounds (fits : ty.Fits value) : -2 ^ 63 ≤ value ∧ value < 2 ^ 63 := by
  have long := fits.long
  unfold Fits wrap at long
  rw [Int.bmod_def] at long
  simp only [width, Width.bytes] at long
  omega

theorem fits_truth (ty : IntTy) (holds : Bool) : ty.Fits (truth holds) := by
  cases ty <;> cases holds <;> decide

theorem fits_convert (ty : IntTy) (value : Int) : ty.Fits (ty.convert value) := by
  cases ty with
  | bool => exact fits_truth _ _
  | char | short | int | long => exact fits_wrap _ value

end IntTy

/-- The value of an operator fits the type of the result. -/
theorem binaryValue_fits {ty : IntTy} {left right value : Int} {op : BinaryOp}
    (result : binaryValue ty left right op = .ok value) : ty.Fits value := by
  cases op with
  | add | sub | mul =>
      cases result
      exact ty.fits_wrap _
  | div | mod =>
      unfold binaryValue at result
      cases divided : divide left right with
      | error trap => simp [divided, Except.map] at result
      | ok pair =>
          simp only [divided, Except.map, Except.ok.injEq] at result
          rw [← result]
          exact ty.fits_wrap _
  | eq | ne | lt | le | gt | ge | logAnd | logOr =>
      cases result
      exact ty.fits_truth _

theorem unaryValue_fits (ty : IntTy) (operand : Int) (op : UnaryOp) :
    ty.Fits (unaryValue ty operand op) := by
  cases op with
  | neg | bitNot => exact ty.fits_wrap _
  | not => exact ty.fits_truth _

/-- Values fit their types, and the variables go on holding numbers of their types. -/
theorem Evaluates.fits
    {tracked : Variable -> Prop}
    (single : ∀ first second, tracked first -> tracked second -> first.id = second.id ->
      first = second)
    {expr : Expr}
    {store after : Store}
    {value : Int}
    (evaluates : Evaluates expr store value after)
    (inside : ∀ target ∈ expr.vars, tracked target)
    (fits : store.Fits tracked) :
    expr.ty.Fits value ∧ after.Fits tracked := by
  induction evaluates with
  | literal => exact ⟨IntTy.fits_wrap _ _, fits⟩
  | var => exact ⟨fits _ (inside _ List.mem_cons_self), fits⟩
  | cast _ hypothesis => exact ⟨IntTy.fits_convert _ _, (hypothesis inside fits).2⟩
  | unary _ hypothesis => exact ⟨unaryValue_fits _ _ _, (hypothesis inside fits).2⟩
  | andFalse _ hypothesis =>
      have left := hypothesis
        (fun target member => inside target (List.mem_append_left _ member)) fits
      exact ⟨IntTy.fits_truth .int false, left.2⟩
  | orTrue _ _ hypothesis =>
      have left := hypothesis
        (fun target member => inside target (List.mem_append_left _ member)) fits
      exact ⟨IntTy.fits_truth .int true, left.2⟩
  | andTrue _ _ _ first second | orFalse _ _ first second =>
      have left := first (fun target member => inside target
        (List.mem_append_left _ member)) fits
      have right := second (fun target member => inside target
        (List.mem_append_right _ member)) left.2
      exact ⟨IntTy.fits_truth _ _, right.2⟩
  | binary _ _ _ _ result first second =>
      have left := first (fun target member => inside target
        (List.mem_append_left _ member)) fits
      have right := second (fun target member => inside target
        (List.mem_append_right _ member)) left.2
      exact ⟨binaryValue_fits result, right.2⟩
  | comma _ _ first second =>
      have left := first (fun target member => inside target
        (List.mem_append_left _ member)) fits
      exact second (fun target member => inside target (List.mem_append_right _ member))
        left.2
  | @assign target _ _ given after _ hypothesis =>
      have inner := hypothesis
        (fun other member => inside other (List.mem_cons_of_mem _ member)) fits
      refine ⟨IntTy.fits_convert _ _, ?_⟩
      intro other member
      unfold Store.set
      split
      · rename_i same
        obtain rfl := single other target member (inside _ List.mem_cons_self) same
        exact IntTy.fits_convert _ _
      · exact inner.2 other member

end Semantics
end MiniC
