import Mathlib.Data.List.Forall2
import Mathlib.Data.Nat.Digits.Lemmas
import MiniC.Proofs.Compile
import MiniC.Proofs.Token.Continuation

/-!
# What a number literal stands for

A number is written in one of four notations, announced by how its run of letters and
digits begins.  What remains of the run behind the mark of the notation has to be digits
of its radix, and their positional value has to be in range.  `NumeralForm.Spells` says so
of a run alone.  At every place of a source where a digit begins a token, the run there is
read as one number token of that value, or the source is rejected at the beginning of the
run.
-/

namespace MiniC

/-! ## NumeralForms -/

/-- The ways in which a number may be written. -/
inductive NumeralForm
  | decimal
  | octal
  | hexadecimal
  | binary
  deriving DecidableEq

namespace NumeralForm

/-- The radix of a notation. -/
def radix : NumeralForm -> Nat
  | decimal => 10
  | octal => 8
  | hexadecimal => 16
  | binary => 2

/-- The notation that a run of letters and digits announces, and the digits that it
leaves.  The zero that announces the octal notation is itself a digit. -/
def ofRun : List Char -> NumeralForm × List Char
  | '0' :: 'x' :: digits => (hexadecimal, digits)
  | '0' :: 'X' :: digits => (hexadecimal, digits)
  | '0' :: 'b' :: digits => (binary, digits)
  | '0' :: 'B' :: digits => (binary, digits)
  | '0' :: digits => (octal, '0' :: digits)
  | digits => (decimal, digits)

/-- The letters that announce a radix behind a leading zero. -/
def marks : List Char := ['x', 'X', 'b', 'B']

theorem ofRun_of_ne_zero {first : Char} (other : first ≠ '0') (rest : List Char) :
    ofRun (first :: rest) = (decimal, first :: rest) := by
  unfold ofRun
  split <;> simp_all

theorem ofRun_zero {rest : List Char} (unmarked : ∀ next ∈ rest.head?, next ∉ marks) :
    ofRun ('0' :: rest) = (octal, '0' :: rest) := by
  unfold ofRun
  split <;> simp_all [marks]

/-- What is written in front of the digits of a number. -/
def mark : NumeralForm -> List Char
  | decimal => []
  | octal => ['0']
  | hexadecimal => ['0', 'x']
  | binary => ['0', 'b']

/-- A number as it is written. -/
def print (form : NumeralForm) (number : Nat) : List Char :=
  form.mark ++ Nat.toDigits form.radix number

end NumeralForm

/-- A character that is the digit of a value, in either case. -/
def IsDigitOf (value : Nat) (char : Char) : Prop :=
  char = Nat.digitChar value ∨ char = (Nat.digitChar value).toUpper

/-- A run of letters and digits spells a number: behind its mark it leaves at least one
digit and nothing but digits below the radix, and their positional value is the number,
which is at most the largest value of a signed word. -/
def NumeralForm.Spells (run : List Char) (number : Nat) : Prop :=
  ∃ digits : List Nat, digits ≠ [] ∧ (∀ digit ∈ digits, digit < (ofRun run).1.radix) ∧
    List.Forall₂ IsDigitOf digits (ofRun run).2 ∧
    number = Nat.ofDigits (ofRun run).1.radix digits.reverse ∧
    (number : Int) ≤ Extent.maxValue

/-! ## Places that the lexer comes to -/

/-- Cutting a text leads to a place: what stands in front of it has been cut into pieces,
and what stands behind it remains. -/
inductive Lexer.Reaches (text : List Char) : List Char -> List Char -> Prop
  | start : Reaches text [] text
  | step {before rest : List Char} {char : Char} {found : Piece}
      (earlier : Reaches text before (char :: rest))
      (cut : piece char rest = .ok found) :
      Reaches text (before ++ char :: rest.take found.more) (rest.drop found.more)

namespace Lexer

/-- What remains at a place that is reached is cut as it is by itself, and its tokens are
tokens of the whole text. -/
theorem Reaches.tokens_eq {text before rest : List Char}
    (reaches : Reaches text before rest) :
    ∃ earlier, tokens text 0 1 =
      (tokens rest (byteLength before) (1 + before.count '\n')).map fun parts =>
        (earlier ++ parts.1, parts.2) := by
  induction reaches with
  | start =>
      refine ⟨[], ?_⟩
      change tokens text 0 1 = (tokens text 0 1).map id
      cases tokens text 0 1 <;> rfl
  | @step before rest char found earlier cut hypothesis =>
      obtain ⟨already, whole⟩ := hypothesis
      rw [whole, tokens_cons cut, byteLength_append, List.count_append, ← Nat.add_assoc]
      refine ⟨already ++ (found.kind.map fun kind =>
        (⟨kind, String.ofList (char :: rest.take found.more), byteLength before,
          1 + before.count '\n'⟩ : Token)).toList, ?_⟩
      cases tokens (rest.drop found.more) _ _ with
      | error error => rfl
      | ok parts => simp only [Except.map, List.append_assoc]

end Lexer

/-! ## Digits -/

namespace Number

/-- Digits are added up from the most significant one on. -/
theorem foldl_eq_ofDigits (radix : Nat) (digits : List Nat) :
    digits.foldl (fun value digit => value * radix + digit) 0 =
      Nat.ofDigits radix digits.reverse := by
  rw [Nat.ofDigits_eq_foldr, List.foldr_reverse]
  congr 1
  funext value digit
  rw [Nat.cast_id, Nat.add_comm, Nat.mul_comm]

theorem digitValue?_of_isDigitOf {value : Nat} {char : Char} (small : value < 16)
    (written : IsDigitOf value char) : digitValue? char = some value := by
  have both : ∀ value : Fin 16, digitValue? (Nat.digitChar value) = some value.val ∧
      digitValue? (Nat.digitChar value).toUpper = some value.val := by decide
  rcases written with rfl | rfl
  · exact (both ⟨value, small⟩).1
  · exact (both ⟨value, small⟩).2

theorem isDigitOf_of_digitValue? {value : Nat} {char : Char} (small : value < 16)
    (read : digitValue? char = some value) : IsDigitOf value char := by
  have decimal :
      ∀ digit : Fin 10, Char.ofNat (48 + digit) = Nat.digitChar digit := by decide
  have lower :
      ∀ digit : Fin 6, Char.ofNat (97 + digit) = Nat.digitChar (digit + 10) := by decide
  have upper : ∀ digit : Fin 6,
      Char.ofNat (65 + digit) = (Nat.digitChar (digit + 10)).toUpper := by decide
  unfold digitValue? at read
  split at read
  · rename_i inside
    obtain rfl : char.toNat - 48 = value := Option.some.inj read
    have lowest : 48 ≤ char.toNat := inside.1
    have highest : char.toNat ≤ 57 := inside.2
    have same := decimal ⟨char.toNat - 48, by omega⟩
    dsimp only at same
    rw [Nat.add_sub_cancel' lowest, Char.ofNat_toNat] at same
    exact .inl same
  split at read
  · rename_i inside
    obtain rfl : char.toNat - 97 + 10 = value := Option.some.inj read
    have lowest : 97 ≤ char.toNat := inside.1
    have same := lower ⟨char.toNat - 97, by omega⟩
    dsimp only at same
    rw [Nat.add_sub_cancel' lowest, Char.ofNat_toNat] at same
    exact .inl same
  split at read
  · rename_i inside
    obtain rfl : char.toNat - 65 + 10 = value := Option.some.inj read
    have lowest : 65 ≤ char.toNat := inside.1
    have same := upper ⟨char.toNat - 65, by omega⟩
    dsimp only at same
    rw [Nat.add_sub_cancel' lowest, Char.ofNat_toNat] at same
    exact .inr same
  · cases read

/-- The digits of a radix are the characters that are written for the values below it. -/
theorem digitIn?_eq_some {radix value : Nat} {char : Char} (small : radix ≤ 16) :
    digitIn? radix char = some value ↔ value < radix ∧ IsDigitOf value char := by
  unfold digitIn?
  rw [Option.filter_eq_some_iff, decide_eq_true_iff, and_comm]
  refine and_congr_right fun below => ?_
  have bound : value < 16 := Nat.lt_of_lt_of_le below small
  exact ⟨isDigitOf_of_digitValue? bound, digitValue?_of_isDigitOf bound⟩

/-- Digits are read one after the other as long as the value that they give is in range.
It never decreases, so that only the last one has to be looked at. -/
theorem readDigits_eq_ok {radix : Nat} (positive : 0 < radix) (small : radix ≤ 16)
    {chars : List Char} {start number : Nat} :
    readDigits radix chars start = .ok number ∧ (start : Int) ≤ Extent.maxValue ↔
      ∃ digits : List Nat, (∀ digit ∈ digits, digit < radix) ∧
        List.Forall₂ IsDigitOf digits chars ∧
        number = digits.foldl (fun value digit => value * radix + digit) start ∧
        (number : Int) ≤ Extent.maxValue := by
  induction chars generalizing start with
  | nil =>
      rw [readDigits]
      constructor
      · rintro ⟨⟨⟩, range⟩
        exact ⟨[], by simp, .nil, rfl, range⟩
      · rintro ⟨_, _, ⟨⟩, rfl, range⟩
        exact ⟨rfl, range⟩
  | cons char rest hypothesis =>
      rw [readDigits]
      constructor
      · rintro ⟨read, -⟩
        cases known : digitIn? radix char with
        | none =>
            rw [known] at read
            cases read
        | some digit =>
            obtain ⟨below, written⟩ := (digitIn?_eq_some small).mp known
            rw [known] at read
            dsimp only at read
            split at read
            · rename_i range
              obtain ⟨digits, bounded, spelled, sum, inRange⟩ :=
                hypothesis.mp ⟨read, by exact_mod_cast range⟩
              exact ⟨digit :: digits, List.forall_mem_cons.mpr ⟨below, bounded⟩,
                .cons written spelled, sum, inRange⟩
            · cases read
      · rintro ⟨digits, bounded, spelled, sum, inRange⟩
        obtain ⟨digit, more, written, following, rfl⟩ :=
          List.forall₂_cons_right_iff.mp spelled
        obtain ⟨below, others⟩ := List.forall_mem_cons.mp bounded
        have behind : readDigits radix rest (start * radix + digit) = .ok number ∧
            ((start * radix + digit : Nat) : Int) ≤ Extent.maxValue :=
          hypothesis.mpr ⟨more, others, following, sum, inRange⟩
        obtain ⟨read, range⟩ := behind
        rw [(digitIn?_eq_some small).mpr ⟨below, written⟩]
        dsimp only
        rw [if_pos (by exact_mod_cast range)]
        have grown : start ≤ start * radix + digit :=
          Nat.le_trans (Nat.le_mul_of_pos_right start positive) (Nat.le_add_right _ _)
        exact ⟨read, by omega⟩

theorem value_eq_ok {radix number : Nat} (positive : 0 < radix) (small : radix ≤ 16)
    {chars : List Char} :
    value radix chars = .ok number ↔
      ∃ digits : List Nat, digits ≠ [] ∧ (∀ digit ∈ digits, digit < radix) ∧
        List.Forall₂ IsDigitOf digits chars ∧
        number = Nat.ofDigits radix digits.reverse ∧
        (number : Int) ≤ Extent.maxValue := by
  have start : ((0 : Nat) : Int) ≤ Extent.maxValue := by decide
  unfold value
  cases chars with
  | nil =>
      refine ⟨fun read => (by cases read), ?_⟩
      rintro ⟨_, written, _, ⟨⟩, _⟩
      exact absurd rfl written
  | cons char rest =>
      rw [List.isEmpty_cons, if_neg Bool.false_ne_true]
      constructor
      · intro read
        obtain ⟨digits, bounded, spelled, sum, range⟩ :=
          (readDigits_eq_ok positive small).mp ⟨read, start⟩
        refine ⟨digits, ?_, bounded, spelled, sum.trans (foldl_eq_ofDigits _ _), range⟩
        rintro rfl
        cases spelled
      · rintro ⟨digits, _, bounded, spelled, sum, range⟩
        exact ((readDigits_eq_ok positive small).mpr ⟨digits, bounded, spelled,
          sum.trans (foldl_eq_ofDigits _ _).symm, range⟩).1

/-! ## Runs -/

/-- The letters and digits at the front of a text. -/
def run (text : List Char) : List Char := text.takeWhile isAlphanumeric

/-- A text that begins with a digit is read in the notation that its run announces, and
what is read is the whole run. -/
def ReadsRun (text : List Char) : Prop :=
  (reading text).radix = (NumeralForm.ofRun (run text)).1.radix ∧
    (text.drop (reading text).mark).takeWhile isAlphanumeric =
      (NumeralForm.ofRun (run text)).2 ∧
    (reading text).mark + (NumeralForm.ofRun (run text)).2.length = (run text).length

/-- The choice of a notation looks at the whole text.  It differs from what the run
announces only where the text ends with the mark, and there no digits are left either
way. -/
theorem readsRun_or_bare {first : Char} (rest : List Char)
    (digit : first.isDigit = true) :
    ReadsRun (first :: rest) ∨ ∃ mark ∈ NumeralForm.marks,
      first = '0' ∧ rest = [mark] := by
  have own : isAlphanumeric first = true := by simp [isAlphanumeric, digit]
  by_cases zero : first = '0'
  · subst zero
    match rest with
    | [] => exact .inl ⟨rfl, rfl, rfl⟩
    | mark :: more =>
        by_cases marks : mark ∈ NumeralForm.marks
        · cases more with
          | nil => exact .inr ⟨mark, marks, rfl, rfl⟩
          | cons next more =>
              left
              simp only [NumeralForm.marks, List.mem_cons, List.not_mem_nil,
                or_false] at marks
              rcases marks with rfl | rfl | rfl | rfl <;>
              · refine ⟨rfl, rfl, ?_⟩
                exact Nat.add_comm 2 _
        · left
          have octal : reading ('0' :: mark :: more) = ⟨8, 0⟩ := by
            unfold reading
            split <;> simp_all [NumeralForm.marks]
          have announced : NumeralForm.ofRun (run ('0' :: mark :: more)) =
              (.octal, run ('0' :: mark :: more)) := by
            rw [run, List.takeWhile_cons_of_pos own]
            refine NumeralForm.ofRun_zero fun next first => ?_
            rw [List.takeWhile_cons] at first
            split at first <;> cases first
            exact marks
          refine ⟨?_, ?_, ?_⟩ <;> rw [octal, announced]
          · rfl
          · rfl
          · exact Nat.zero_add _
  · left
    have decimal : reading (first :: rest) = ⟨10, 0⟩ := by
      unfold reading
      split <;> simp_all
    have announced : NumeralForm.ofRun (run (first :: rest)) =
        (.decimal, run (first :: rest)) := by
      rw [run, List.takeWhile_cons_of_pos own]
      exact NumeralForm.ofRun_of_ne_zero zero _
    refine ⟨?_, ?_, ?_⟩ <;> rw [decimal, announced]
    · rfl
    · rfl
    · exact Nat.zero_add _

theorem radix_bounds (form : NumeralForm) : 0 < form.radix ∧ form.radix ≤ 16 := by
  cases form <;> decide

/-- A text that begins with a digit is read as a number exactly if its run spells it. -/
theorem scan_eq_ok {first : Char} {rest : List Char} (digit : first.isDigit = true)
    {result : Int × Nat} :
    scan (first :: rest) = .ok result ↔
      ∃ number : Nat, NumeralForm.Spells (run (first :: rest)) number ∧
        result = ((number : Int), (run (first :: rest)).length) := by
  obtain ⟨positive, small⟩ := radix_bounds (NumeralForm.ofRun (run (first :: rest))).1
  rcases readsRun_or_bare rest digit with ⟨radix, digits, length⟩ | ⟨mark,
    marks, rfl, rfl⟩
  · unfold scan
    dsimp only
    rw [radix, digits, length]
    constructor
    · intro scanned
      split at scanned
      · rename_i number known
        cases scanned
        exact ⟨number, (value_eq_ok positive small).mp known, rfl⟩
      · cases scanned
    · rintro ⟨number, spells, rfl⟩
      rw [(value_eq_ok positive small).mpr spells]
  · -- only the mark is left of the text
    simp only [NumeralForm.marks, List.mem_cons, List.not_mem_nil, or_false] at marks
    rcases marks with rfl | rfl | rfl | rfl <;>
    · refine ⟨fun scanned => (by cases scanned), ?_⟩
      rintro ⟨number, ⟨digits, written, -, spelled, -⟩, -⟩
      cases spelled
      exact absurd rfl written

theorem scan_error {text : List Char} {error : LexicalError}
    (failed : scan text = .error error) :
    ∃ reason, error = .invalidNumber reason := by
  unfold scan at failed
  dsimp only at failed
  split at failed <;> cases failed
  exact ⟨_, rfl⟩

end Number

namespace Lexer

/-- A digit is neither a blank nor the beginning of a comment. -/
theorem piece_of_isDigit {first : Char} (digit : first.isDigit = true)
    (rest : List Char) :
    piece first rest =
      match Number.scan (first :: rest) with
      | .ok (value, length) => .ok ⟨some (.num value), length - 1⟩
      | .error error => .error ⟨0, error⟩ := by
  have noSlash : first ≠ '/' := by
    rintro rfl
    cases digit
  have noBlank : isBlank first = false := by
    by_contra blank
    rw [Bool.not_eq_false] at blank
    simp only [isBlank, Bool.or_eq_true, beq_iff_eq] at blank
    rcases blank with (((rfl | rfl) | rfl) | rfl) | rfl <;> cases digit
  rw [piece_of_ne_slash noSlash]
  exact (if_neg (by simp [noBlank])).trans (if_pos digit)

/-- A run that spells a number is one token. -/
theorem piece_of_spells {first : Char} {rest : List Char} (digit : first.isDigit = true)
    {number : Nat} (spells : NumeralForm.Spells (Number.run (first :: rest)) number) :
    piece first rest =
      .ok ⟨some (.num number), (Number.run (first :: rest)).length - 1⟩ := by
  rw [piece_of_isDigit digit, (Number.scan_eq_ok digit).mpr ⟨number, spells, rfl⟩]

/-- A run that spells no number is rejected at its beginning. -/
theorem tokens_of_not_spells {first : Char} {rest : List Char}
    (digit : first.isDigit = true)
    (none : ¬ ∃ number, NumeralForm.Spells (Number.run (first :: rest)) number)
    (loc line : Nat) :
    ∃ reason, tokens (first :: rest) loc line =
      .error (.rejected (.lexical (.invalidNumber reason)) loc) := by
  cases scanned : Number.scan (first :: rest) with
  | ok result =>
      obtain ⟨number, spells, -⟩ := (Number.scan_eq_ok digit).mp scanned
      exact absurd ⟨number, spells⟩ none
  | error error =>
      obtain ⟨reason, rfl⟩ := Number.scan_error scanned
      refine ⟨reason, ?_⟩
      rw [tokens, piece_of_isDigit digit, scanned]
      rfl

/-- A run is cut off at the front of a text. -/
theorem run_cons {first : Char} (digit : first.isDigit = true) (rest : List Char) :
    first :: rest.take ((Number.run (first :: rest)).length - 1) =
        Number.run (first :: rest) ∧
      rest.drop ((Number.run (first :: rest)).length - 1) =
        (first :: rest).dropWhile Number.isAlphanumeric := by
  have own : Number.isAlphanumeric first = true := by simp [Number.isAlphanumeric, digit]
  rw [Number.run, List.takeWhile_cons_of_pos own, List.dropWhile_cons_of_pos own,
    List.length_cons, Nat.add_sub_cancel]
  have parts : rest = rest.takeWhile Number.isAlphanumeric ++
      rest.dropWhile Number.isAlphanumeric := List.takeWhile_append_dropWhile.symm
  constructor
  · exact congrArg _ (List.prefix_iff_eq_take.mp (List.takeWhile_prefix _)).symm
  · nth_rewrite 2 [parts]
    exact List.drop_left

/-- The token of a run that spells a number, and those of what stands behind it. -/
theorem tokens_of_spells {first : Char} {rest : List Char} (digit : first.isDigit = true)
    {number : Nat} (spells : NumeralForm.Spells (Number.run (first :: rest)) number)
    (loc line : Nat) :
    tokens (first :: rest) loc line =
      (tokens ((first :: rest).dropWhile Number.isAlphanumeric)
        (loc + byteLength (Number.run (first :: rest)))
        (line + (Number.run (first :: rest)).count '\n')).map fun parts =>
          (⟨.num number, String.ofList (Number.run (first :: rest)), loc, line⟩ ::
            parts.1, parts.2) := by
  rw [tokens_cons (piece_of_spells digit spells)]
  dsimp only
  rw [(run_cons digit rest).1, (run_cons digit rest).2]
  rfl

end Lexer

/-! ## Printing -/

namespace NumeralForm

theorem one_lt_radix (form : NumeralForm) : 1 < form.radix := by
  cases form <;> decide

/-- A number is printed with digits of its radix that have it as their positional
value. -/
theorem exists_toDigits {radix : Nat} (proper : 1 < radix) (number : Nat) :
    ∃ digits : List Nat, digits ≠ [] ∧ (∀ digit ∈ digits, digit < radix) ∧
      Nat.toDigits radix number = digits.map Nat.digitChar ∧
      number = Nat.ofDigits radix digits.reverse ∧
      (0 < number -> digits.head? ≠ some 0) := by
  induction number using Nat.strongRecOn with
  | ind number hypothesis =>
  rw [Nat.toDigits_eq_if proper]
  by_cases small : number < radix
  · rw [if_pos small]
    refine ⟨[number], by simp, by simpa using small, rfl, by simp, fun positive => ?_⟩
    simpa using Nat.ne_of_gt positive
  · rw [if_neg small]
    have quotient : number / radix < number :=
      Nat.div_lt_self (by omega) proper
    obtain ⟨digits, written, bounded, printed, sum, leading⟩ := hypothesis _ quotient
    refine ⟨digits ++ [number % radix], by simp, ?_, ?_, ?_, fun _ => ?_⟩
    · rw [List.forall_mem_append]
      exact ⟨bounded, by simpa using Nat.mod_lt number (by omega)⟩
    · rw [printed, List.map_append]
      rfl
    · rw [List.reverse_append, List.reverse_singleton, List.singleton_append,
        Nat.ofDigits_cons, ← sum]
      exact (Nat.mod_add_div number radix).symm
    · rw [List.head?_append_of_ne_nil _ written]
      exact leading (Nat.div_pos (by omega) (by omega))

theorem digitChar_alphanumeric {digit : Nat} (small : digit < 16) :
    Number.isAlphanumeric (Nat.digitChar digit) = true := by
  have all :
      ∀ digit : Fin 16, Number.isAlphanumeric (Nat.digitChar digit) = true := by decide
  exact all ⟨digit, small⟩

theorem forall_alphanumeric_print (form : NumeralForm) (number : Nat) :
    ∀ char ∈ form.print number, Number.isAlphanumeric char = true := by
  obtain ⟨digits, -, bounded, printed, -⟩ := exists_toDigits form.one_lt_radix number
  have marked : form.mark.all Number.isAlphanumeric = true := by
    cases form <;> rfl
  rw [print, printed, List.forall_mem_append]
  refine ⟨List.all_eq_true.mp marked, fun char member => ?_⟩
  obtain ⟨digit, there, rfl⟩ := List.mem_map.mp member
  exact digitChar_alphanumeric (Nat.lt_of_lt_of_le (bounded digit there)
    (Number.radix_bounds form).2)

theorem isDigitOf_map (digits : List Nat) :
    List.Forall₂ IsDigitOf digits (digits.map Nat.digitChar) := by
  rw [List.forall₂_map_right_iff, List.forall₂_same]
  exact fun digit _ => .inl rfl

/-- Digits that are printed behind a mark spell a number. -/
theorem spells_of_ofRun {text : List Char} {form : NumeralForm}
    {digits : List Nat} {number : Nat}
    (announced : ofRun text = (form, digits.map Nat.digitChar))
    (written : digits ≠ [])
    (bounded : ∀ digit ∈ digits, digit < form.radix)
    (sum : number = Nat.ofDigits form.radix digits.reverse)
    (range : (number : Int) ≤ Extent.maxValue) : Spells text number := by
  refine ⟨digits, written, ?_, ?_, ?_, range⟩ <;> rw [announced]
  · exact bounded
  · exact isDigitOf_map digits
  · exact sum

/-- A number that is printed in any notation is spelled. -/
theorem spells_print (form : NumeralForm) {number : Nat}
    (range : (number : Int) ≤ Extent.maxValue) : Spells (form.print number) number := by
  obtain ⟨digits, written, bounded, printed, sum, leading⟩ :=
    exists_toDigits form.one_lt_radix number
  rw [print, printed]
  cases form with
  | hexadecimal => exact spells_of_ofRun rfl written bounded sum range
  | binary => exact spells_of_ofRun rfl written bounded sum range
  | octal =>
      -- the zero in front is itself a digit
      have announced : ofRun ('0' :: digits.map Nat.digitChar) =
          (octal, (0 :: digits).map Nat.digitChar) := by
        refine ofRun_zero fun next first => ?_
        obtain ⟨digit, there, rfl⟩ := List.mem_map.mp (List.mem_of_mem_head? first)
        have unmarked : ∀ digit : Fin 8, Nat.digitChar digit ∉ marks := by decide
        exact unmarked ⟨digit, bounded digit there⟩
      refine spells_of_ofRun announced (List.cons_ne_nil _ _)
        (List.forall_mem_cons.mpr ⟨by decide, bounded⟩) ?_ range
      rw [List.reverse_cons, Nat.ofDigits_append, ← sum]
      simp
  | decimal =>
      rcases Nat.eq_zero_or_pos number with rfl | positive
      · -- the decimal zero is read as an octal one
        rw [← printed]
        have announced : ofRun ['0'] = (octal, [0].map Nat.digitChar) := rfl
        exact spells_of_ofRun announced (by decide) (by decide) rfl range
      · have announced : ofRun (digits.map Nat.digitChar) =
            (decimal, digits.map Nat.digitChar) := by
          cases digits with
          | nil => exact absurd rfl written
          | cons digit digits =>
              refine ofRun_of_ne_zero (fun zero => leading positive ?_) _
              have nonzero :
                  ∀ digit : Fin 10, Nat.digitChar digit = '0' -> digit = 0 := by decide
              have same := nonzero ⟨digit, bounded digit List.mem_cons_self⟩ zero
              exact congrArg some (congrArg Fin.val same)
        exact spells_of_ofRun announced written bounded sum range

/-- What is printed begins with a digit. -/
theorem exists_print_cons (form : NumeralForm) (number : Nat) :
    ∃ first rest, form.print number = first :: rest ∧ first.isDigit = true := by
  cases form with
  | decimal =>
      obtain ⟨digits, written, bounded, printed, -⟩ :=
        exists_toDigits decimal.one_lt_radix number
      have decimals : ∀ digit : Fin 10, (Nat.digitChar digit).isDigit = true := by decide
      cases digits with
      | nil => exact absurd rfl written
      | cons digit digits =>
          exact ⟨_, _, printed, decimals ⟨digit, bounded digit List.mem_cons_self⟩⟩
  | _ => exact ⟨'0', _, rfl, rfl⟩

/-- What is printed is read as one token. -/
theorem tokenize_print (form : NumeralForm) {number : Nat}
    (range : (number : Int) ≤ Extent.maxValue) (name : String) :
    tokenize ⟨name, String.ofList (form.print number)⟩ =
      .ok ⟨#[⟨.num number, String.ofList (form.print number), 0, 1⟩],
        ⟨.eof, "", byteLength (form.print number), 1⟩⟩ := by
  have letters := forall_alphanumeric_print form number
  have whole : Number.run (form.print number) = form.print number :=
    List.takeWhile_eq_self_iff.mpr letters
  have ends : (form.print number).dropWhile Number.isAlphanumeric = [] :=
    List.dropWhile_eq_nil_iff.mpr letters
  have unbroken : (form.print number).count '\n' = 0 :=
    List.count_eq_zero.mpr fun member => absurd (letters _ member) (by decide)
  obtain ⟨first, rest, text, digit⟩ := exists_print_cons form number
  have spells := spells_print form range
  rw [← whole, text] at spells
  have cut := Lexer.tokens_of_spells digit spells 0 1
  rw [← text, whole, ends, unbroken, Lexer.tokens, Nat.zero_add] at cut
  rw [tokenize, String.toList_ofList, cut]
  rfl

end NumeralForm

/-- Number literals are read exactly.  At every place of a source where a digit begins a
token, the run of letters and digits there is one token of the number that it spells, and
cutting goes on behind it; if it spells none, the source is rejected at the beginning of
the run.  And every number of a signed word that is not negative is read back however it
is printed. -/
theorem number_literals_are_read_exactly (file : SourceFile) :
    (∀ before first rest, Lexer.Reaches file.contents.toList before (first :: rest) ->
      first.isDigit = true ->
        let run := (first :: rest).takeWhile Number.isAlphanumeric
        let behind := (first :: rest).dropWhile Number.isAlphanumeric
        (∀ number : Nat, NumeralForm.Spells run number ->
          Lexer.Reaches file.contents.toList (before ++ run) behind ∧
            ∀ tokens, tokenize file = .ok tokens ->
              ⟨.num number, String.ofList run, byteLength before, 1 + before.count '\n'⟩ ∈
                tokens.body.toList) ∧
        ((¬ ∃ number, NumeralForm.Spells run number) ->
          ∃ reason, tokenize file =
            .error (.rejected (.lexical (.invalidNumber reason)) (byteLength before)))) ∧
    ∀ (form : NumeralForm) (number : Nat), (number : Int) ≤ Extent.maxValue ->
      tokenize ⟨file.name, String.ofList (form.print number)⟩ =
        .ok ⟨#[⟨.num number, String.ofList (form.print number), 0, 1⟩],
          ⟨.eof, "", byteLength (form.print number), 1⟩⟩ := by
  refine ⟨fun before first rest reaches digit =>
    ⟨fun number spells => ⟨?_, ?_⟩, fun none => ?_⟩,
    fun form number range => form.tokenize_print range file.name⟩
  · have further := reaches.step (Lexer.piece_of_spells digit spells)
    dsimp only at further
    rwa [(Lexer.run_cons digit rest).1, (Lexer.run_cons digit rest).2] at further
  · intro tokens cut
    obtain ⟨earlier, whole⟩ := reaches.tokens_eq
    rw [tokenize_parts cut, Lexer.tokens_of_spells digit spells] at whole
    cases known : Lexer.tokens ((first :: rest).dropWhile Number.isAlphanumeric) _ _ with
    | error error =>
        rw [known] at whole
        cases whole
    | ok parts =>
        rw [known] at whole
        rw [(Prod.mk.inj (Except.ok.inj whole)).1]
        exact List.mem_append_right _ List.mem_cons_self
  · obtain ⟨earlier, whole⟩ := reaches.tokens_eq
    obtain ⟨reason, failed⟩ := Lexer.tokens_of_not_spells digit none (byteLength before)
      (1 + before.count '\n')
    refine ⟨reason, ?_⟩
    rw [tokenize, whole, failed]
    rfl

/-- A source with a number behind two other tokens. -/
def spelledFile : SourceFile := ⟨"t.c", "a=0X1f;"⟩

/-- A source with a run that is no octal number in the same place. -/
def misspelledFile : SourceFile := ⟨"t.c", "a=08;"⟩

/-- The number is read exactly, the other run is rejected, and so it goes with a number
that is printed. -/
theorem spelledFile_number_is_read_exactly :
    NumeralForm.Spells "0X1f".toList 31 ∧
    (¬ ∃ number, NumeralForm.Spells "08".toList number) ∧
      (∃ tokens, tokenize spelledFile = .ok tokens ∧
        ⟨.num 31, "0X1f", 2, 1⟩ ∈ tokens.body.toList) ∧
      (∃ reason,
        tokenize misspelledFile =
          .error (.rejected (.lexical (.invalidNumber reason)) 2)) ∧
      tokenize ⟨"t.c", "0x7fffffffffffffff"⟩ =
        .ok ⟨#[⟨.num 9223372036854775807, "0x7fffffffffffffff", 0, 1⟩],
          ⟨.eof, "", 18, 1⟩⟩ := by
  have reaches (rest : List Char) : Lexer.Reaches ('a' :: '=' :: '0' :: rest) ['a', '=']
      ('0' :: rest) := by
    have word : Lexer.Reaches ('a' :: '=' :: '0' :: rest) ['a'] ('=' :: '0' :: rest) :=
      @Lexer.Reaches.step _ [] _ 'a' ⟨some .identifier, 0⟩ .start rfl
    exact @Lexer.Reaches.step _ ['a'] _ '=' ⟨some .punctuator, 0⟩ word rfl
  have spells : NumeralForm.Spells "0X1f".toList 31 :=
    ⟨[1, 15], by decide, by decide, .cons (.inl rfl) (.cons (.inl rfl) .nil),
      rfl, by decide⟩
  have misspelled : ¬ ∃ number, NumeralForm.Spells "08".toList number := by
    rintro ⟨number, given⟩
    have scanned := (@Number.scan_eq_ok '0' ['8'] rfl _).mpr ⟨number, given, rfl⟩
    cases scanned
  have isCut : (tokenize spelledFile).isOk = true := by decide +kernel
  have printed : String.ofList (NumeralForm.hexadecimal.print 9223372036854775807) =
      "0x7fffffffffffffff" := by decide +kernel
  have length : byteLength (NumeralForm.hexadecimal.print 9223372036854775807) = 18 := by
    decide +kernel
  refine ⟨spells, misspelled, ?_, ?_, ?_⟩
  · have cut := @eq_ok_of_isOk _ _ _ (⟨#[], ⟨.eof, "", 0, 0⟩⟩ : TokenStream) isCut
    exact ⟨_, cut, (((number_literals_are_read_exactly spelledFile).1 _ _ _ (reaches _)
      rfl).1 31 spells).2 _ cut⟩
  · exact ((number_literals_are_read_exactly misspelledFile).1 _ _ _ (reaches _) rfl).2
      misspelled
  · have read := (number_literals_are_read_exactly spelledFile).2 .hexadecimal
      9223372036854775807 (by decide)
    rw [printed, length] at read
    exact read

end MiniC
