import MiniC.Asm

/-!
# Stack heights along a text

Read from top to bottom, a text pushes and pops words and moves the stack pointer by
constants.  This module counts them: the height a text adds, its floor (the least
height of its prefixes), the bytes by which it lowers the stack pointer, and the
heights at which the labels of a given number are defined and jumped to.

All of these are sums over the lines, so each has a law for texts one behind the
other.
-/

namespace MiniC
namespace Asm

namespace Line

/-- Whether a line pushes a register. -/
def isPush : Line -> Bool
  | instr (.push _) => true
  | _ => false

/-- Whether a line pops into a register. -/
def isPop : Line -> Bool
  | instr (.pop _) => true
  | _ => false

/-- Number of words that a line adds to the stack. -/
def rise : Line -> Int
  | instr (.push _) => 1
  | instr (.pop _) => -1
  | _ => 0

/-- Number of bytes by which a line lowers the stack pointer other than by a push or
a pop. -/
def padding : Line -> Int
  | instr (.subConst .rsp bytes) => bytes
  | instr (.addConst .rsp bytes) => -bytes
  | _ => 0

/-- Whether a line moves the stack pointer only by pushes, pops and constants, and leaves
the base pointer alone. -/
def keepsPointers : Line -> Bool
  | instr (.pop reg) | instr (.move reg _) | instr (.set reg _) =>
      reg ≠ .rsp && reg ≠ .rbp
  | instr (.addConst reg _) | instr (.subConst reg _) => reg ≠ .rbp
  | _ => true

/-- The label that a line defines. -/
def defined? : Line -> Option Label
  | label place => some place
  | _ => none

/-- The label that a line may jump to. -/
def target? : Line -> Option Label
  | instr (.jump target) => some target
  | instr (.jumpEq target) => some target
  | instr (.jumpNe target) => some target
  | _ => none

/-- Whether a line leaves the stack and its pointers alone, calls nothing and takes no
part in jumps. -/
def isPlain : Line -> Bool
  | directive _ => true
  | label (.numbered _ _) => false
  | label _ => true
  | instr (.push _) | instr (.pop _) | instr (.call _) => false
  | instr (.move reg _) | instr (.set reg _) => reg ≠ .rsp && reg ≠ .rbp
  | instr (.subConst reg _) | instr (.addConst reg _) => reg ≠ .rsp && reg ≠ .rbp
  | instr (.jump (.numbered _ _)) => false
  | instr (.jumpEq _) | instr (.jumpNe _) => false
  | instr _ => true

end Line

namespace Code

/-- Number of lines that push. -/
def pushes (code : Code) : Nat := code.countP Line.isPush

/-- Number of lines that pop. -/
def pops (code : Code) : Nat := code.countP Line.isPop

/-- Number of words that a text adds to the stack. -/
def height : Code -> Int
  | [] => 0
  | line :: rest => line.rise + height rest

/-- The least height of a prefix of a text. -/
def floor : Code -> Int
  | [] => 0
  | line :: rest => min 0 (line.rise + floor rest)

/-- Number of bytes by which a text lowers the stack pointer other than by pushes and
pops. -/
def padding : Code -> Int
  | [] => 0
  | line :: rest => line.padding + padding rest

/-- Every call of a text finds the stack pointer lowered by a multiple of sixteen
bytes, if it is lowered by the given number of bytes before the text. -/
def CallsAligned : Int -> Code -> Prop
  | _, [] => True
  | lowered, line :: rest =>
      (∀ name, line = .instr (.call name) -> lowered % 16 = 0) ∧
        CallsAligned (lowered + 8 * line.rise + line.padding) rest

/-- What happens to the numbered labels of one number: a jump to one of them, or the
definition of one, with the height of the stack there. -/
inductive Mark
  | leap (role : Role) (height : Int)
  | landing (role : Role) (height : Int)
  deriving DecidableEq

namespace Mark

/-- Whether a mark is the definition of the label with a role. -/
def isLanding (role : Role) : Mark -> Bool
  | leap _ _ => false
  | landing own _ => own = role

/-- Whether a mark is a jump to the label with a role. -/
def isLeap (role : Role) : Mark -> Bool
  | leap own _ => own = role
  | landing _ _ => false

end Mark

/-- The mark that a line at a height leaves for a number. -/
def mark? (number : Nat) (height : Int) (line : Line) : Option Mark :=
  match line.defined?, line.target? with
  | some (.numbered role own), _ =>
      if own = number then some (.landing role height) else none
  | _, some (.numbered role own) =>
      if own = number then some (.leap role height) else none
  | _, _ => none

/-- The marks that a text leaves for a number, from a height on. -/
def marks (number : Nat) : Int -> Code -> List Mark
  | _, [] => []
  | height, line :: rest =>
      (mark? number height line).toList ++ marks number (height + line.rise) rest

section Append

variable (first second : Code)

/-- The heights of two texts add up. -/
@[simp] theorem height_append :
    height (first ++ second) = height first + height second := by
  induction first with
  | nil => simp [height]
  | cons line rest hypothesis =>
      simp only [List.cons_append, height, hypothesis]
      omega

/-- The least height of two texts is reached in the first or, on top of it, in the
second. -/
@[simp] theorem floor_append :
    floor (first ++ second) = min (floor first) (height first + floor second) := by
  induction first with
  | nil =>
      cases second with
      | nil => simp [floor, height]
      | cons line rest =>
          simp only [List.nil_append, floor, height]
          omega
  | cons line rest hypothesis =>
      simp only [List.cons_append, floor, height, hypothesis]
      omega

@[simp] theorem padding_append :
    padding (first ++ second) = padding first + padding second := by
  induction first with
  | nil => simp [padding]
  | cons line rest hypothesis =>
      simp only [List.cons_append, padding, hypothesis]
      omega

/-- Calls in the second of two texts are aligned as the first leaves the stack. -/
theorem callsAligned_append (lowered : Int) :
    CallsAligned lowered (first ++ second) ↔
      CallsAligned lowered first ∧
        CallsAligned (lowered + 8 * height first + padding first) second := by
  induction first generalizing lowered with
  | nil => simp [CallsAligned, height, padding]
  | cons line rest hypothesis =>
      simp only [List.cons_append, CallsAligned, height, padding, hypothesis, and_assoc]
      have sums : lowered + 8 * line.rise + line.padding + 8 * height rest +
          padding rest =
          lowered + 8 * (line.rise + height rest) + (line.padding + padding rest) := by
        omega
      rw [sums]

/-- The marks of the second of two texts are at heights above that of the first. -/
@[simp] theorem marks_append (number : Nat) (start : Int) :
    marks number start (first ++ second) =
      marks number start first ++ marks number (start + height first) second := by
  induction first generalizing start with
  | nil => simp [marks, height]
  | cons line rest hypothesis =>
      simp [marks, height, hypothesis, Int.add_assoc]

end Append

/-- The height is the number of pushes less that of pops. -/
theorem height_eq (code : Code) : height code = (pushes code : Int) - pops code := by
  induction code with
  | nil => simp [height, pushes, pops]
  | cons line rest hypothesis =>
      have split : line.rise = (if line.isPush then 1 else 0 : Int)
          - (if line.isPop then 1 else 0) := by
        unfold Line.rise Line.isPush Line.isPop
        split <;> simp_all
      simp only [height, split, hypothesis, pushes, pops, List.countP_cons]
      split <;> split <;> omega

/-- No prefix of a text goes below its floor. -/
theorem floor_le_height {before code : Code} (start : before <+: code) :
    floor code ≤ height before := by
  obtain ⟨rest, rfl⟩ := start
  have least : floor rest ≤ 0 := by
    cases rest with
    | nil => simp [floor]
    | cons line rest =>
        simp only [floor]
        omega
  have own : floor before ≤ height before := by
    induction before with
    | nil => simp [floor, height]
    | cons line rest hypothesis =>
        simp only [floor, height]
        omega
  rw [floor_append]
  omega

/-- A line adds at most one word. -/
theorem height_le_length (code : Code) : height code ≤ code.length := by
  induction code with
  | nil => simp [height]
  | cons line rest hypothesis =>
      have single : line.rise ≤ 1 := by
        unfold Line.rise
        split <;> decide
      simp only [height, List.length_cons]
      omega

/-- A call in a text with aligned calls is aligned. -/
theorem CallsAligned.at_call
    {lowered : Int}
    {before after : Code}
    {name : String}
    (aligned : CallsAligned lowered (before ++ .instr (.call name) :: after)) :
    (lowered + 8 * height before + padding before) % 16 = 0 := by
  rw [callsAligned_append] at aligned
  exact aligned.2.1 name rfl

/-- Marks from another height are the same marks at other heights. -/
theorem mem_marks_split
    {number : Nat}
    {start : Int}
    {code : Code}
    {mark : Mark}
    (member : mark ∈ marks number start code) :
    ∃ before line after, code = before ++ line :: after ∧
      mark? number (start + height before) line = some mark := by
  induction code generalizing start with
  | nil => simp [marks] at member
  | cons line rest hypothesis =>
      simp only [marks, List.mem_append, Option.mem_toList] at member
      rcases member with own | later
      · exact ⟨[], line, rest, rfl, by simpa [height] using own⟩
      · obtain ⟨before, found, after, rfl, marked⟩ := hypothesis later
        refine ⟨line :: before, found, after, rfl, ?_⟩
        rw [← marked, height, Int.add_assoc]

/-- A definition of a label is marked once. -/
theorem countP_isLanding (code : Code) (number : Nat) (start : Int) (role : Role) :
    (marks number start code).countP (·.isLanding role) =
      code.count (.label (.numbered role number)) := by
  induction code generalizing start with
  | nil => rfl
  | cons line rest hypothesis =>
      have own : (mark? number start line).toList.countP (·.isLanding role) =
          if line = .label (.numbered role number) then 1 else 0 := by
        cases line with
        | directive order => simp [mark?, Line.defined?, Line.target?]
        | label place =>
            cases place with
            | numbered other found =>
                by_cases same : found = number <;>
                  simp [mark?, Line.defined?, same, Mark.isLanding, List.countP_cons]
            | _ => simp [mark?, Line.defined?, Line.target?]
        | instr step =>
            cases step with
            | jump target | jumpEq target | jumpNe target =>
                cases target with
                | numbered other found =>
                    by_cases same : found = number <;>
                      simp [mark?, Line.defined?, Line.target?, same, Mark.isLanding]
                | _ => simp [mark?, Line.defined?, Line.target?]
            | _ => simp [mark?, Line.defined?, Line.target?]
      rw [marks, List.countP_append, own, hypothesis, List.count_cons]
      simp only [beq_iff_eq]
      omega

/-- A line that may jump to a numbered label. -/
def isJumpTo (role : Role) (number : Nat) (line : Line) : Bool :=
  line.target? = some (.numbered role number)

/-- A jump to a label is marked once. -/
theorem countP_isLeap (code : Code) (number : Nat) (start : Int) (role : Role) :
    (marks number start code).countP (·.isLeap role) =
      code.countP (isJumpTo role number) := by
  induction code generalizing start with
  | nil => rfl
  | cons line rest hypothesis =>
      have own : (mark? number start line).toList.countP (·.isLeap role) =
          if isJumpTo role number line then 1 else 0 := by
        cases line with
        | directive order => simp [mark?, isJumpTo, Line.defined?, Line.target?]
        | label place =>
            cases place with
            | numbered other found =>
                by_cases same : found = number <;>
                  simp [mark?, isJumpTo, Line.defined?, Line.target?, same, Mark.isLeap]
            | _ => simp [mark?, isJumpTo, Line.defined?, Line.target?]
        | instr step =>
            cases step with
            | jump target | jumpEq target | jumpNe target =>
                cases target with
                | numbered other found =>
                    by_cases same : found = number <;>
                      simp [mark?, isJumpTo, Line.defined?, Line.target?,
                        same, Mark.isLeap, List.countP_cons]
                | _ => simp [mark?, isJumpTo, Line.defined?, Line.target?]
            | _ => simp [mark?, isJumpTo, Line.defined?, Line.target?]
      rw [marks, List.countP_append, own, hypothesis, List.countP_cons]
      omega

/-! ## Padding -/

/-- A text that moves the stack pointer by constants only around calls, by one word. -/
inductive Even : Code -> Prop
  | nil : Even []
  | line {line rest} (flat : line.padding = 0) (others : Even rest) : Even (line :: rest)
  | call {name rest} (others : Even rest) :
      Even (.instr (.subConst .rsp 8) :: .instr (.set .rax 0) :: .instr (.call name)
        :: .instr (.addConst .rsp 8) :: rest)

namespace Even

variable {code first second : Code}

/-- Padding is removed before a text ends, so that another may follow. -/
theorem append (left : Even first) (right : Even second) : Even (first ++ second) := by
  induction left with
  | nil => exact right
  | line flat _ hypothesis => exact .line flat hypothesis
  | call _ hypothesis => exact .call hypothesis

/-- A text without padding. -/
theorem of_flat (flat : ∀ line ∈ code, line.padding = 0) : Even code := by
  induction code with
  | nil => exact .nil
  | cons line rest hypothesis =>
      exact .line (flat line List.mem_cons_self)
        (hypothesis fun other member => flat other (List.mem_cons_of_mem line member))

/-- A padded position is followed by a line that neither is a label nor jumps. -/
theorem padding_cases (even : Even code) {before rest : Code}
    (divided : code = before ++ rest) :
    before.padding = 0 ∨
      before.padding = 8 ∧ ∃ line tail, rest = line :: tail ∧ line.defined? = none ∧
        line.target? = none := by
  induction even generalizing before with
  | nil =>
      obtain ⟨rfl, rfl⟩ := List.append_eq_nil_iff.mp divided.symm
      exact .inl rfl
  | line flat _ hypothesis =>
      cases before with
      | nil => exact .inl rfl
      | cons other before =>
          obtain ⟨rfl, equal⟩ := List.cons.inj divided
          rcases hypothesis equal with none | ⟨word, next⟩
          · exact .inl (by rw [padding, flat, none]; rfl)
          · exact .inr ⟨by rw [padding, flat, word]; rfl, next⟩
  | @call name others _ hypothesis =>
      match before with
      | [] => exact .inl rfl
      | [_] =>
          cases divided
          exact .inr ⟨rfl, _, _, rfl, rfl, rfl⟩
      | [_, _] =>
          cases divided
          exact .inr ⟨rfl, _, _, rfl, rfl, rfl⟩
      | [_, _, _] =>
          cases divided
          exact .inr ⟨rfl, _, _, rfl, rfl, rfl⟩
      | first :: second :: third :: fourth :: before =>
          simp only [List.cons_append, List.cons.injEq] at divided
          obtain ⟨rfl, rfl, rfl, rfl, equal⟩ := divided
          have level : padding (.instr (.subConst .rsp 8) :: .instr (.set .rax 0)
              :: .instr (.call name) :: .instr (.addConst .rsp 8) :: before) =
              padding before := by
            simp only [padding, Line.padding]
            omega
          rw [level]
          exact hypothesis equal

end Even

/-! ## Plain lines -/

end Code

/-- What a plain line leaves alone. -/
structure Line.Inert (line : Line) : Prop where
  rise : line.rise = 0
  padding : line.padding = 0
  pointers : line.keepsPointers = true
  unmarked : ∀ number height, Code.mark? number height line = none
  noCall : ∀ name, line ≠ .instr (.call name)
  noPush : ∀ reg, line ≠ .instr (.push reg)

/-- A plain line moves no pointer and has no label. -/
theorem Line.inert {line : Line} (plain : line.isPlain = true) : line.Inert := by
  cases line with
  | directive order => exact ⟨rfl, rfl, rfl, fun _ _ => rfl, by simp, by simp⟩
  | label place =>
      cases place with
      | numbered role number => cases plain
      | _ => exact ⟨rfl, rfl, rfl, fun _ _ => rfl, by simp, by simp⟩
  | instr step =>
      cases step with
      | push reg | pop reg | call name | jumpEq target | jumpNe target => cases plain
      | move reg value | set reg value =>
          exact ⟨rfl, rfl, plain, fun _ _ => rfl, by simp, by simp⟩
      | subConst reg bytes | addConst reg bytes =>
          cases reg with
          | rsp | rbp => cases plain
          | _ => exact ⟨rfl, rfl, rfl, fun _ _ => rfl, by simp, by simp⟩
      | jump target =>
          cases target with
          | numbered role number => cases plain
          | _ => exact ⟨rfl, rfl, rfl, fun _ _ => rfl, by simp, by simp⟩
      | _ => exact ⟨rfl, rfl, rfl, fun _ _ => rfl, by simp, by simp⟩

namespace Code

/-- A text of plain lines. -/
def Plain (code : Code) : Prop := ∀ line ∈ code, line.isPlain = true

namespace Plain

variable {code : Code}

/-- Two plain texts make one. -/
theorem append {first second : Code} (left : Plain first) (right : Plain second) :
    Plain (first ++ second) := by
  intro line member
  rcases List.mem_append.mp member with inFirst | inSecond
  · exact left line inFirst
  · exact right line inSecond

theorem inert (plain : Plain code) : ∀ line ∈ code, line.Inert :=
  fun line member => Line.inert (plain line member)

theorem head {line : Line} (plain : Plain (line :: code)) : line.Inert :=
  plain.inert line List.mem_cons_self

theorem tail {line : Line} (plain : Plain (line :: code)) : Plain code :=
  fun other member => plain other (List.mem_cons_of_mem line member)

/-- A plain text leaves the stack at its height. -/
theorem height_eq_zero (plain : Plain code) : height code = 0 := by
  induction code with
  | nil => rfl
  | cons line rest hypothesis =>
      rw [height, plain.head.rise, hypothesis plain.tail]
      rfl

/-- A plain text does not go below the height it begins at. -/
theorem floor_eq_zero (plain : Plain code) : floor code = 0 := by
  induction code with
  | nil => rfl
  | cons line rest hypothesis =>
      rw [floor, plain.head.rise, hypothesis plain.tail]
      rfl

theorem padding_eq_zero (plain : Plain code) : padding code = 0 := by
  induction code with
  | nil => rfl
  | cons line rest hypothesis =>
      rw [padding, plain.head.padding, hypothesis plain.tail]
      rfl

theorem even (plain : Plain code) : Even code :=
  .of_flat fun line member => (plain.inert line member).padding

theorem callsAligned (plain : Plain code) (lowered : Int) :
    CallsAligned lowered code := by
  induction code generalizing lowered with
  | nil => trivial
  | cons line rest hypothesis =>
      exact ⟨fun name call => (plain.head.noCall name call).elim, hypothesis plain.tail _⟩

/-- A plain text leaves no marks. -/
theorem marks_eq_nil (plain : Plain code) (number : Nat) (start : Int) :
    marks number start code = [] := by
  induction code generalizing start with
  | nil => rfl
  | cons line rest hypothesis =>
      rw [marks, plain.head.unmarked, hypothesis plain.tail]
      rfl

/-- A plain text pushes nothing. -/
theorem not_push (plain : Plain code) (reg : Reg) : .instr (.push reg) ∉ code :=
  fun member => (plain.inert _ member).noPush reg rfl

end Plain
end Code
end Asm
end MiniC
