import MiniC.Proofs.Declarator.Meaning
import MiniC.Compile

/-!
# Redundant parentheses

Parentheses around a whole declarator change nothing of what it means.  But what stands in
them is read of `int` first and has to be accepted there too, which an array is not whose
size is in range only because its elements are smaller than an `int`.
-/

namespace MiniC
namespace Declarators

open Precedence Grammar

/-- A declarator in parentheses. -/
def Phrase.parenthesized (phrase : Phrase) : Phrase := .nested 0 phrase .nothing

/-- A declarator with a name that is none of a type does not look like parameters. -/
theorem Phrase.opens_of_name {scopes : Scopes} {phrase : Phrase} {name : Identifier}
    (named : phrase.name = some name) (noType : scopes.typedef? name.text = none) :
    phrase.Opens scopes := by
  cases phrase with
  | plain count first suffix =>
      cases count with
      | zero =>
          obtain rfl : first = some name := named
          exact noType
      | succ count => exact trivial
  | nested count inner suffix =>
      cases count with
      | zero => exact trivial
      | succ count => exact trivial

/-! ## Sizes -/

section Fits

variable {setting : Setting}

/-- A structure is no larger than another one, unless the size of that one is unknown. -/
def Shape.Fits (known : TypeTable) (small large : Shape) : Prop :=
  large.size known < 0 ∨ 0 ≤ small.size known ∧ small.size known ≤ large.size known

theorem Shape.Fits.pointers {known : TypeTable} {small large : Shape}
    (fits : small.Fits known large) (count : Nat) :
    (small.pointers count).Fits known (large.pointers count) := by
  induction count generalizing small large with
  | zero => exact fits
  | succ count hypothesis =>
      have known : (0 : Int) ≤ 8 := by decide
      exact hypothesis (.inr ⟨known, Int.le_refl _⟩)

theorem Shape.Fits.array {known : TypeTable} {small large : Shape}
    (fits : small.Fits known large) (length : Nat) :
    (Shape.array small length).Fits known (.array large length) := by
  have counts : (0 : Int) ≤ length := Int.natCast_nonneg length
  unfold Shape.Fits
  simp only [Shape.size]
  rcases fits with unknown | ⟨known, least⟩
  · rcases Int.lt_or_eq_of_le counts with some | none
    · exact .inl (Int.mul_neg_of_neg_of_pos unknown some)
    · rw [← none]
      simp
  · exact .inr ⟨Int.mul_nonneg known counts, Int.mul_le_mul_of_nonneg_right least counts⟩

/-- Suffixes keep the order of sizes. -/
theorem Suffix.reading_fits {small large : Shape}
    (fits : small.Fits setting.types large) :
    ∀ suffix : Suffix,
      (suffix.reading setting small).Fits setting.types (suffix.reading setting large)
  | .nothing => fits
  | .array length rest => (Suffix.reading_fits fits rest).array length
  | .function _ => .inr ⟨show (0 : Int) ≤ 1 by decide, Int.le_refl _⟩

/-- What suffixes accept, they accept in a smaller size. -/
theorem Suffix.Accepts.of_fits {small large : Shape}
    (fits : small.Fits setting.types large) :
    ∀ {suffix : Suffix}, suffix.Accepts setting large -> suffix.Accepts setting small
  | .nothing, _ => trivial
  | .function _, accepts => accepts
  | .array length rest, ⟨inner, known, inRange⟩ => by
      have counts : (0 : Int) ≤ length := Int.natCast_nonneg length
      obtain ⟨nonneg, least⟩ :=
        (Suffix.reading_fits fits rest).resolve_left (Int.not_lt.mpr known)
      have below := Int.mul_le_mul_of_nonneg_right least counts
      have above := Int.mul_nonneg nonneg counts
      have bounds : Extent.minValue ≤ 0 := by decide
      exact ⟨inner.of_fits fits, nonneg, Int.le_trans bounds above,
        Int.le_trans below inRange.2⟩

/-- What a declarator accepts, it accepts in a smaller size. -/
theorem Phrase.Accepts.of_fits :
    ∀ {phrase : Phrase} {small large : Shape}, small.Fits setting.types large ->
      phrase.Accepts setting large -> phrase.Accepts setting small
  | .plain count _ _, _, _, fits, accepts =>
      Suffix.Accepts.of_fits (fits.pointers count) accepts
  | .nested count _ suffix, _, _, fits, ⟨trial, outer, inner⟩ =>
      ⟨trial, outer.of_fits (fits.pointers count),
        inner.of_fits (Suffix.reading_fits (fits.pointers count) suffix)⟩

end Fits

/-! ## Declarators in parentheses -/

/-- In parentheses, a declarator with a name that is none of a type is accepted exactly if
without them it is accepted of the same base type and of `int`; of an incomplete type or
one that is no smaller than `int` the latter follows.  Both declare the same name with
types of one structure. -/
theorem parenthesized_declarator_reads_as_bare
    {bare enclosed : State}
    {base : TyId}
    {ty : Ty}
    {phrase : Phrase}
    {name : Identifier}
    {depth : Nat}
    (closed : (Setting.of bare).Closed)
    (same : Setting.of bare = Setting.of enclosed)
    (found : bare.program.types.get? base = some ty)
    (clear : phrase.Clear bare.scopes)
    (named : phrase.name = some name)
    (noType : bare.scopes.typedef? name.text = none)
    (bareShows : bare.Shows phrase.lexemes)
    (bareEnds : phrase.Ends (bare.token (bare.pos + phrase.lexemes.length)))
    (enclosedShows : enclosed.Shows phrase.parenthesized.lexemes)
    (enclosedEnds : phrase.parenthesized.Ends
      (enclosed.token (enclosed.pos + phrase.parenthesized.lexemes.length)))
    (deep : phrase.parenthesized.lexemes.length ≤ depth) :
    (Succeeds (declarator (productions depth) base) enclosed ↔
      Succeeds (declarator (productions depth) base) bare ∧
        Succeeds (declarator (productions depth) .int) bare) ∧
    (ty.size < 0 ∨ 4 ≤ ty.size ->
      (Succeeds (declarator (productions depth) base) enclosed ↔
        Succeeds (declarator (productions depth) base) bare)) ∧
    ∀ declared after other otherAfter,
      declarator (productions depth) base bare = .ok declared after ->
      declarator (productions depth) base enclosed = .ok other otherAfter ->
      (Names bare.tokens (some name) declared.name ∧
        Names enclosed.tokens (some name) other.name) ∧
      ∃ shape : Shape,
        shape.Denotes bare.program.types bare.tokens after.program.types declared.ty ∧
        shape.Denotes bare.program.types enclosed.tokens otherAfter.program.types
          other.ty := by
  obtain ⟨scopes, types⟩ := Setting.mk.inj same
  have present : bare.program.types.Has base := .of_get? found
  have length : phrase.parenthesized.lexemes.length = phrase.lexemes.length + 2 := by
    simp [Phrase.parenthesized, Phrase.lexemes, Suffix.lexemes, stars]
  have shallow : phrase.lexemes.length ≤ depth := by omega
  have bareReads := @reads_of_closed bare depth closed base present phrase clear
    bareShows bareEnds shallow
  have intReads := @reads_of_closed bare depth closed .int
    (.of_get? (closed.sound.primitives .int _ rfl)) phrase clear bareShows
      bareEnds shallow
  have enclosedClear : phrase.parenthesized.Clear enclosed.scopes := by
    rw [← scopes]
    exact ⟨phrase.opens_of_name named noType, clear, trivial⟩
  have enclosedReads := @reads_of_closed enclosed depth (by rwa [← same]) base
    (by rwa [← types]) phrase.parenthesized enclosedClear enclosedShows enclosedEnds deep
  rw [← same] at enclosedReads
  -- The meaning of a declarator in parentheses is that of what stands in them.
  have accepts : phrase.parenthesized.Accepts (.of bare) (.given base) ↔
      phrase.Accepts (.of bare) (.given base) ∧ phrase.Accepts (.of bare) (.given .int) :=
    ⟨fun both => ⟨both.2.2, both.1⟩, fun both => ⟨both.2, trivial, both.1⟩⟩
  have exactly : Succeeds (declarator (productions depth) base) enclosed ↔
      Succeeds (declarator (productions depth) base) bare ∧
        Succeeds (declarator (productions depth) .int) bare :=
    enclosedReads.succeeds_iff.trans (accepts.trans
      (and_congr bareReads.succeeds_iff.symm intReads.succeeds_iff.symm))
  refine ⟨exactly, fun large => exactly.trans (and_iff_left_of_imp fun succeeds => ?_),
    ?_⟩
  · have int := closed.sound.primitives .int _ rfl
    have fits : (Shape.given .int).Fits bare.program.types (.given base) := by
      unfold Shape.Fits
      simp only [Shape.size, found, show bare.program.types.get? .int = some _ from int,
        Option.map_some, Option.getD_some]
      exact large.imp id fun least => ⟨by decide, least⟩
    have accepted : phrase.Accepts (.of bare) (.given base) :=
      bareReads.succeeds_iff.mp succeeds
    exact intReads.succeeds_iff.mpr (accepted.of_fits fits)
  · intro declared after other otherAfter run otherRun
    obtain ⟨-, _, rfl, -, -, bareName, bareDenotes⟩ := bareReads.of_ok run
    obtain ⟨-, _, rfl, -, -, enclosedName, enclosedDenotes⟩ :=
      enclosedReads.of_ok otherRun
    have bareNames := Phrase.names bareShows
    have enclosedNames := Phrase.names enclosedShows
    rw [← bareName, named] at bareNames
    rw [← enclosedName,
      show phrase.parenthesized.name = some name from named] at enclosedNames
    rw [← types] at enclosedDenotes
    exact ⟨⟨bareNames, enclosedNames⟩, _, bareDenotes, enclosedDenotes⟩

/-- The tokens of `*f(char x[3]);`, places left out. -/
def bareTokens : TokenStream :=
  ⟨#[⟨.punctuator, "*", 0, 1⟩, ⟨.identifier, "f", 0, 1⟩, ⟨.punctuator, "(", 0, 1⟩,
      ⟨.keyword, "char", 0, 1⟩, ⟨.identifier, "x", 0, 1⟩, ⟨.punctuator, "[", 0, 1⟩,
      ⟨.num 3, "3", 0, 1⟩, ⟨.punctuator, "]", 0, 1⟩, ⟨.punctuator, ")", 0, 1⟩,
      ⟨.punctuator, ";", 0, 1⟩],
    ⟨.eof, "", 0, 1⟩⟩

/-- The tokens of `(*f(char x[3]));`, places left out. -/
def enclosedTokens : TokenStream :=
  ⟨#[⟨.punctuator, "(", 0, 1⟩, ⟨.punctuator, "*", 0, 1⟩, ⟨.identifier, "f", 0, 1⟩,
      ⟨.punctuator, "(", 0, 1⟩, ⟨.keyword, "char", 0, 1⟩, ⟨.identifier, "x", 0, 1⟩,
      ⟨.punctuator, "[", 0, 1⟩, ⟨.num 3, "3", 0, 1⟩, ⟨.punctuator, "]", 0, 1⟩,
      ⟨.punctuator, ")", 0, 1⟩, ⟨.punctuator, ")", 0, 1⟩, ⟨.punctuator, ";", 0, 1⟩],
    ⟨.eof, "", 0, 1⟩⟩

/-- Their declarator. -/
def textPhrase : Phrase :=
  .plain 1 (some functionName)
    (.function (.cons (.words .char [])
      (.plain 0 (some paramName) (.array 3 .nothing)) .nil))

/-- A function that returns a pointer, declared with and without parentheses. -/
theorem enclosed_function_reads_as_bare :
    ∃ declared after other otherAfter,
      declarator (productions 11) .long (.initial bareTokens) = .ok declared after ∧
      declarator (productions 11) .long (.initial enclosedTokens) = .ok other otherAfter ∧
      ∃ shape : Shape,
        shape.Denotes .initial bareTokens after.program.types declared.ty ∧
        shape.Denotes .initial enclosedTokens otherAfter.program.types other.ty := by
  have closed : (Setting.of (.initial bareTokens)).Closed :=
    ⟨initial_types_sound, nofun, nofun⟩
  have bareShows : (State.initial bareTokens).Shows textPhrase.lexemes := by
    unfold State.Shows
    decide
  have enclosedShows :
      (State.initial enclosedTokens).Shows textPhrase.parenthesized.lexemes := by
    unfold State.Shows
    decide
  have behind : textPhrase.parenthesized.Ends
      ((State.initial enclosedTokens).token textPhrase.parenthesized.lexemes.length) :=
    ⟨by decide, by decide⟩
  have clear : textPhrase.Clear (State.initial bareTokens).scopes :=
    ⟨trivial, trivial, trivial⟩
  obtain ⟨-, large, both⟩ := @parenthesized_declarator_reads_as_bare (.initial bareTokens)
    (.initial enclosedTokens) .long _ textPhrase _ 11 closed rfl rfl clear rfl rfl
      bareShows trivial
    enclosedShows behind (by decide)
  have succeeds : Succeeds (declarator (productions 11) .long) (.initial bareTokens) := by
    decide +kernel
  obtain ⟨other, otherAfter, otherRun⟩ := (large (.inr (by decide))).mpr succeeds
  obtain ⟨declared, after, run⟩ := succeeds
  exact ⟨declared, after, other, otherAfter, run, otherRun,
    (both declared after other otherAfter run otherRun).2⟩

/-- An array of characters that would be too large as one of `int`. -/
def hugeArrayFile : SourceFile :=
  ⟨"t.c", "char a[3000000000000000000]; int main() { return 0; }"⟩

/-- The same array with its declarator in parentheses. -/
def enclosedArrayFile : SourceFile :=
  ⟨"t.c", "char (a[3000000000000000000]); int main() { return 0; }"⟩

/-- Its declarator is accepted without parentheses only. -/
theorem enclosed_array_is_too_large :
    (compileLines hugeArrayFile).isOk = true ∧
      compileLines enclosedArrayFile = .error (.rejected (.typing .arrayTooLarge) 8) := by
  decide +kernel

end Declarators
end MiniC
