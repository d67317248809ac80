import Mathlib.Algebra.Group.Int.Defs
import Mathlib.Tactic.ByContra
import MiniC.Proofs.Asm.Height
import MiniC.Proofs.Emit.Failure

/-!
# Stack discipline of generated code

The code of an expression pushes one word, the code of a statement none, and neither
touches what was on the stack before it.  Jumps by numbered labels join places of
equal height, and calls find the stack aligned.

`Piece` is what every stretch of generated lines keeps of the stack, and `Labelled`
what it keeps of the numbered labels.  Both are closed under putting one stretch behind
another, so the induction over `Emits` only has to look at the three constructs that
have labels of their own.
-/

namespace MiniC
namespace Emit

open Asm

/-! ## Stretches of lines and the stack -/

/-- A stretch of lines that goes no lower than `low` words below its start, ends `rise`
words above it, pushes only `rax`, keeps the pointers, and aligns its calls, by padding
around them, if the depths are right. -/
structure Piece (low rise : Int) (state : State) (code : Code)
    (after : State) : Prop where
  depth : after.depth = state.depth + rise
  height : code.height = rise
  floor : low ≤ code.floor
  padding : code.padding = 0
  even : code.Even
  calls : code.CallsAligned (8 * state.depth)
  pushes : ∀ reg, .instr (.push reg) ∈ code -> reg = .rax
  pointers : ∀ line ∈ code, line.keepsPointers = true

namespace Piece

variable {low rise : Int} {state middle after : State} {code : Code}

/-- Plain lines do nothing to the stack. -/
theorem plain (plain : code.Plain) : Piece 0 0 state code state where
  depth := by omega
  height := plain.height_eq_zero
  floor := by
    have level := plain.floor_eq_zero
    omega
  padding := plain.padding_eq_zero
  even := plain.even
  calls := plain.callsAligned _
  pushes := fun reg member => absurd member (plain.not_push reg)
  pointers := fun line member => (plain.inert line member).pointers

/-- A line that may jump or be jumped to does nothing to the stack either. -/
theorem line
    {line : Line}
    (flat : line.rise = 0)
    (unpadded : line.padding = 0)
    (notCall : ∀ name, line ≠ .instr (.call name))
    (notPush : ∀ reg, line ≠ .instr (.push reg))
    (keeps : line.keepsPointers = true) :
    Piece 0 0 state [line] state where
  depth := by omega
  height := by simp [Code.height, flat]
  floor := by simp [Code.floor, flat]
  padding := by simp [Code.padding, unpadded]
  even := .line unpadded .nil
  calls := ⟨fun name equal => absurd equal (notCall name), trivial⟩
  pushes := fun reg member => absurd (List.mem_singleton.mp member).symm (notPush reg)
  pointers := by simpa using keeps

theorem push : Piece 0 1 state (instrs [.push .rax]) (state.lift 1) where
  depth := rfl
  height := rfl
  floor := by decide
  padding := rfl
  even := .line rfl .nil
  calls := by simp [instrs, Code.CallsAligned]
  pushes := by simp [instrs]
  pointers := by simp [instrs, Line.keepsPointers]

theorem pop (reg : Reg) (free : reg ≠ .rsp ∧ reg ≠ .rbp) :
    Piece (-1) (-1) state (instrs [.pop reg]) (state.lift (-1)) where
  depth := rfl
  height := rfl
  floor := by
    simp only [instrs, List.map, Code.floor, Line.rise]
    omega
  padding := rfl
  even := .line rfl .nil
  calls := by simp [instrs, Code.CallsAligned]
  pushes := by simp [instrs]
  pointers := by simp [instrs, Line.keepsPointers, free]

/-- One stretch behind another. -/
theorem append
    {secondLow secondRise : Int}
    {first second : Code}
    (left : Piece low rise state first middle)
    (right : Piece secondLow secondRise middle second after) :
    Piece (min low (rise + secondLow)) (rise + secondRise) state
      (first ++ second) after where
  depth := by rw [right.depth, left.depth]; omega
  height := by rw [Code.height_append, left.height, right.height]
  floor := by
    have leftFloor := left.floor
    have rightFloor := right.floor
    rw [Code.floor_append, left.height]
    omega
  padding := by rw [Code.padding_append, left.padding, right.padding]; rfl
  even := left.even.append right.even
  calls := by
    rw [Code.callsAligned_append, left.height, left.padding]
    refine ⟨left.calls, ?_⟩
    have lowered : 8 * state.depth + 8 * rise + 0 = 8 * middle.depth := by
      rw [left.depth]
      omega
    rw [lowered]
    exact right.calls
  pushes := by
    intro reg member
    rcases List.mem_append.mp member with inFirst | inSecond
    · exact left.pushes reg inFirst
    · exact right.pushes reg inSecond
  pointers := by
    intro line member
    rcases List.mem_append.mp member with inFirst | inSecond
    · exact left.pointers line inFirst
    · exact right.pointers line inSecond

/-- The bounds of a stretch may be restated. -/
theorem restate
    {otherLow otherRise : Int}
    (piece : Piece low rise state code after)
    (lower : otherLow ≤ low)
    (equal : otherRise = rise) :
    Piece otherLow otherRise state code after := by
  subst equal
  exact { piece with floor := Int.le_trans lower piece.floor }

/-- Lines that work on the top of the stack. -/
theorem top {list : List Instr} (plain : (instrs list).Plain) :
    Piece (-1) 0 state (topLines list) state := by
  have popped : Piece (-1) (-1) state (instrs [.pop .rax]) (state.lift (-1)) :=
    pop .rax (by decide)
  have piece := (popped.append (Piece.plain plain)).append push
  have restored : (state.lift (-1)).lift 1 = state := by simp
  rw [restored] at piece
  exact piece.restate (by omega) (by omega)

/-- Lines that pop a value and compare it with zero. -/
theorem test : Piece (-1) (-1) state testLines (state.lift (-1)) := by
  have plain : (instrs [.compareZero]).Plain := by simp [Code.Plain, instrs, Line.isPlain]
  exact ((pop .rax (by decide)).append (Piece.plain plain)).restate (by omega) (by omega)

/-- A jump to a label does nothing to the stack. -/
theorem jumpEq (target : Label) : Piece 0 0 state (instrs [.jumpEq target]) state :=
  line rfl rfl (by simp) (by simp) rfl

theorem jumpNe (target : Label) : Piece 0 0 state (instrs [.jumpNe target]) state :=
  line rfl rfl (by simp) (by simp) rfl

theorem jump (target : Label) : Piece 0 0 state (instrs [.jump target]) state :=
  line rfl rfl (by simp) (by simp) rfl

/-- The definition of a label does nothing to the stack. -/
theorem define (role : Role) (number : Nat) :
    Piece 0 0 state (define role number) state :=
  line rfl rfl (by simp) (by simp) rfl

/-- Setting `rax` does nothing to the stack. -/
theorem set (value : Int) : Piece 0 0 state (instrs [.set .rax value]) state :=
  line rfl rfl (by simp) (by simp) rfl

/-- Pops into registers. -/
theorem pops {regs : List Reg} (free : ∀ reg ∈ regs, reg ≠ .rsp ∧ reg ≠ .rbp) :
    Piece (-regs.length) (-regs.length) state (popLines regs)
      (state.lift (-regs.length)) := by
  induction regs generalizing state with
  | nil =>
      have plain : (popLines []).Plain := by simp [Code.Plain, popLines, instrs]
      have piece : Piece 0 0 state (popLines []) state := Piece.plain plain
      simpa using piece
  | cons reg rest hypothesis =>
      have lines : popLines (reg :: rest) = popLines rest ++ instrs [.pop reg] := by
        simp [popLines, instrs]
      have popped : Piece _ _ state (popLines rest) _ :=
        hypothesis fun other member => free other (List.mem_cons_of_mem reg member)
      have piece := popped.append (pop reg (free reg List.mem_cons_self))
      rw [State.lift_lift] at piece
      rw [lines]
      have length : ((reg :: rest).length : Int) = rest.length + 1 := by simp
      have total : -((reg :: rest).length : Int) = -(rest.length : Int) + -1 := by omega
      rw [total]
      exact piece.restate (by omega) rfl

/-- A call, with the padding it needs at its depth. -/
theorem call (name : String) : Piece 0 0 state (callLines state.depth name) state where
  depth := by omega
  height := by unfold callLines; split <;> rfl
  floor := by unfold callLines; split <;> simp [instrs, Code.floor, Line.rise]
  padding := by unfold callLines; split <;> rfl
  even := by
    unfold callLines
    split
    · exact .line rfl (.line rfl .nil)
    · exact .call .nil
  calls := by
    unfold callLines
    split
    · simp only [instrs, List.map, Code.CallsAligned, Line.rise, Line.padding]
      refine ⟨by simp, ?_, trivial⟩
      intro _ _
      omega
    · simp only [instrs, List.map, Code.CallsAligned, Line.rise, Line.padding]
      refine ⟨by simp, by simp, ?_, by simp, trivial⟩
      intro _ _
      omega
  pushes := by unfold callLines; split <;> simp [instrs]
  pointers := by unfold callLines; split <;> simp [instrs, Line.keepsPointers]

end Piece

/-! ## Plain instructions -/

theorem plain_extend (width : Width) : (instrs (extend width)).Plain := by
  unfold extend
  split <;> simp [Code.Plain, instrs, Line.isPlain]

theorem plain_narrow (ty : Ty) : (instrs (narrow ty)).Plain := by
  unfold narrow
  split
  · exact plain_extend ty.width
  · simp [Code.Plain, instrs]

theorem plain_operation (op : BinaryOp) (ty : Ty) : (instrs (operation op ty)).Plain := by
  have narrowed := plain_narrow ty
  cases op <;> simp_all [operation, truth, Code.Plain, instrs, Line.isPlain]

theorem plain_unaryOperation (op : UnaryOp) (ty : Ty) :
    (instrs (unaryOperation op ty)).Plain := by
  have narrowed := plain_narrow ty
  cases op <;> simp_all [unaryOperation, truth, Code.Plain, instrs, Line.isPlain]

theorem plain_storeInstrs (ty : Ty) : (instrs (storeInstrs ty)).Plain := by
  unfold storeInstrs
  split
  · intro line member
    simp only [instrs, copyBytes, List.mem_map, List.mem_flatMap] at member
    obtain ⟨step, ⟨offset, _, copies⟩, rfl⟩ := member
    simp only [List.mem_cons, List.not_mem_nil, or_false] at copies
    rcases copies with rfl | rfl <;> rfl
  · simp [Code.Plain, instrs, Line.isPlain]

theorem plain_stored (ty : Ty) :
    (instrs (storeInstrs ty ++ [.move .rax .rdi])).Plain := by
  have moved : (instrs [.move .rax .rdi]).Plain := by
    simp [Code.Plain, instrs, Line.isPlain]
  have lines := (plain_storeInstrs ty).append moved
  rwa [instrs, instrs, ← List.map_append] at lines

/-! ## Stretches of lines and their labels -/

/-- Marks in which every jump lands at its own height, no label is defined twice, and at
most one jump leads to the end. -/
def Landed (marks : List Code.Mark) : Prop :=
  (∀ role height, .leap role height ∈ marks -> .landing role height ∈ marks) ∧
    (∀ role, marks.countP (·.isLanding role) ≤ 1) ∧ marks.countP (·.isLeap .stop) ≤ 1

/-- A stretch of lines whose numbered labels are those handed out during it, and whose
jumps to them stay inside. -/
structure Labelled (state : State) (code : Code) (after : State) : Prop where
  grows : state.nextLabel ≤ after.nextLabel
  own : ∀ number start, code.marks number start ≠ [] ->
    state.nextLabel ≤ number ∧ number < after.nextLabel
  landed : ∀ number start, Landed (code.marks number start)

namespace Labelled

variable {state middle after : State} {code first second : Code}

theorem landed_nil : Landed [] := by simp [Landed]

/-- Lines that neither define nor jump to numbered labels. -/
theorem silent
    (silent : ∀ number start, code.marks number start = [])
    (same : after.nextLabel = state.nextLabel) :
    Labelled state code after where
  grows := by omega
  own := fun number start marked => absurd (silent number start) marked
  landed := fun number start => by rw [silent]; exact landed_nil

/-- Numbers below or beyond those handed out leave no marks. -/
theorem marks_eq_nil
    (labelled : Labelled state code after)
    {number : Nat}
    (outside : number < state.nextLabel ∨ after.nextLabel ≤ number)
    (start : Int) :
    code.marks number start = [] := by
  by_contra marked
  have := labelled.own number start marked
  omega

/-- One stretch behind another. -/
theorem append
    (left : Labelled state first middle)
    (right : Labelled middle second after) :
    Labelled state (first ++ second) after where
  grows := Nat.le_trans left.grows right.grows
  own := by
    intro number start marked
    have leftGrows := left.grows
    have rightGrows := right.grows
    by_contra outside
    apply marked
    rw [Code.marks_append, left.marks_eq_nil (by omega), right.marks_eq_nil (by omega)]
    rfl
  landed := by
    intro number start
    -- A number belongs to one of the two stretches at most.
    rw [Code.marks_append]
    by_cases early : number < middle.nextLabel
    · rw [right.marks_eq_nil (.inl early), List.append_nil]
      exact left.landed number start
    · rw [left.marks_eq_nil (.inr (by omega)), List.nil_append]
      exact right.landed number _

end Labelled

/-! ## Constructs with labels of their own -/

namespace Labelled

variable {state middle between after : State}

theorem test : Labelled state testLines (state.lift (-1)) :=
  silent (fun _ _ => rfl) rfl

/-- A construct that takes a number for itself and is otherwise made of lines that take
their own. -/
theorem enclose
    {inside code : Code}
    (inner : Labelled state.numbered inside after)
    (others : ∀ number start, number ≠ state.nextLabel ->
      code.marks number start = inside.marks number start)
    (own : ∀ start, Landed (code.marks state.nextLabel start)) :
    Labelled state code after := by
  have grows := inner.grows
  simp only [State.numbered_nextLabel] at grows
  refine ⟨by omega, ?_, ?_⟩
  · intro number start marked
    by_cases taken : number = state.nextLabel
    · omega
    · rw [others number start taken] at marked
      have bounds := inner.own number start marked
      simp only [State.numbered_nextLabel] at bounds
      omega
  · intro number start
    by_cases taken : number = state.nextLabel
    · rw [taken]
      exact own start
    · rw [others number start taken]
      exact inner.landed number start

/-- A conjunction or disjunction. -/
theorem shortCircuit
    {jump : Label -> Instr}
    {role : Role}
    {decided undecided : Int}
    {left right : Code}
    (conditional : jump = .jumpEq ∧ role = .onFalse ∨ jump = .jumpNe ∧ role = .onTrue)
    (leftHeight : left.height = 1)
    (rightHeight : right.height = 1)
    (first : Labelled state.numbered left middle)
    (second : Labelled (middle.lift (-1)) right after) :
    Labelled state
      (shortCircuitLines jump role decided undecided state.nextLabel left right)
        after := by
  have grows := first.grows
  refine enclose ((first.append test).append second) ?_ ?_
  · intro number start other
    rcases conditional with ⟨rfl, rfl⟩ | ⟨rfl, rfl⟩ <;>
      simp [shortCircuitLines, testLines, define, instrs, Code.marks, Code.mark?,
        Line.defined?, Line.target?, Line.rise, other.symm]
  · intro start
    have leftMarks : left.marks state.nextLabel start = [] :=
      first.marks_eq_nil (.inl (Nat.lt_succ_self _)) start
    have rightMarks : right.marks state.nextLabel start = [] :=
      second.marks_eq_nil (.inl grows) start
    rcases conditional with ⟨rfl, rfl⟩ | ⟨rfl, rfl⟩
    · have marks : Code.marks state.nextLabel start (shortCircuitLines .jumpEq .onFalse
          decided undecided state.nextLabel left right) =
          [.leap .onFalse start, .leap .onFalse start, .leap .stop start,
            .landing .onFalse start, .landing .stop start] := by
        simp [shortCircuitLines, testLines, define, instrs, Code.marks, Code.mark?,
          Line.defined?, Line.target?, Line.rise, leftHeight, rightHeight, leftMarks,
          rightMarks]
      rw [marks]
      refine ⟨by simp, ?_, by simp [Code.Mark.isLeap]⟩
      intro role
      cases role <;> simp [Code.Mark.isLanding]
    · have marks : Code.marks state.nextLabel start (shortCircuitLines .jumpNe .onTrue
          decided undecided state.nextLabel left right) =
          [.leap .onTrue start, .leap .onTrue start, .leap .stop start,
            .landing .onTrue start, .landing .stop start] := by
        simp [shortCircuitLines, testLines, define, instrs, Code.marks, Code.mark?,
          Line.defined?, Line.target?, Line.rise, leftHeight, rightHeight, leftMarks,
          rightMarks]
      rw [marks]
      refine ⟨by simp, ?_, by simp [Code.Mark.isLeap]⟩
      intro role
      cases role <;> simp [Code.Mark.isLanding]

/-- A branch. -/
theorem branch
    {condition first second : Code}
    (conditionHeight : condition.height = 1)
    (firstHeight : first.height = 0)
    (secondHeight : second.height = 0)
    (decision : Labelled state.numbered condition middle)
    (taken : Labelled (middle.lift (-1)) first between)
    (other : Labelled between second after) :
    Labelled state (branchLines state.nextLabel condition first second) after := by
  have decisionGrows := decision.grows
  have takenGrows := taken.grows
  simp only [State.numbered_nextLabel, State.lift_nextLabel] at decisionGrows takenGrows
  refine enclose (((decision.append test).append taken).append other) ?_ ?_
  · intro number start different
    simp [branchLines, testLines, define, instrs, Code.marks, Code.mark?, Line.defined?,
      Line.target?, Line.rise, different.symm]
  · intro start
    have conditionMarks : condition.marks state.nextLabel start = [] :=
      decision.marks_eq_nil (.inl (Nat.lt_succ_self _)) start
    have firstMarks : first.marks state.nextLabel start = [] :=
      taken.marks_eq_nil (.inl decisionGrows) start
    have secondMarks : second.marks state.nextLabel start = [] :=
      other.marks_eq_nil (.inl (by omega)) start
    have marks : Code.marks state.nextLabel start
        (branchLines state.nextLabel condition first second) =
        [.leap .otherwise start, .leap .stop start, .landing .otherwise start,
          .landing .stop start] := by
      simp [branchLines, testLines, define, instrs, Code.marks, Code.mark?, Line.defined?,
        Line.target?, Line.rise, conditionHeight, firstHeight, secondHeight,
          conditionMarks,
        firstMarks, secondMarks]
    rw [marks]
    refine ⟨by simp [or_comm], ?_, by simp [Code.Mark.isLeap]⟩
    intro role
    cases role <;> simp [Code.Mark.isLanding]

/-- A loop without a condition. -/
theorem loop
    {first round next : Code}
    (firstHeight : first.height = 0)
    (roundHeight : round.height = 0)
    (nextHeight : next.height = 0)
    (start : Labelled state.numbered first middle)
    (inner : Labelled middle round between)
    (advance : Labelled between next after) :
    Labelled state (loopLines state.nextLabel first [] round next) after := by
  have startGrows := start.grows
  have innerGrows := inner.grows
  simp only [State.numbered_nextLabel] at startGrows
  refine enclose ((start.append inner).append advance) ?_ ?_
  · intro number height different
    simp [loopLines, define, instrs, Code.marks, Code.mark?, Line.defined?, Line.target?,
      Line.rise, different.symm]
  · intro height
    have firstMarks : first.marks state.nextLabel height = [] :=
      start.marks_eq_nil (.inl (Nat.lt_succ_self _)) height
    have roundMarks : round.marks state.nextLabel height = [] :=
      inner.marks_eq_nil (.inl startGrows) height
    have nextMarks : next.marks state.nextLabel height = [] :=
      advance.marks_eq_nil (.inl (by omega)) height
    have marks : Code.marks state.nextLabel height
        (loopLines state.nextLabel first [] round next) =
        [.landing .start height, .leap .start height, .landing .stop height] := by
      simp [loopLines, define, instrs, Code.marks, Code.mark?,
        Line.defined?, Line.target?, Line.rise, firstHeight, roundHeight, nextHeight,
          firstMarks, roundMarks, nextMarks]
    rw [marks]
    refine ⟨by simp [or_comm], ?_, by simp [Code.Mark.isLeap]⟩
    intro role
    cases role <;> simp [Code.Mark.isLanding]

/-- A loop with a condition. -/
theorem loopWhile
    {decided : State}
    {first condition round next : Code}
    (firstHeight : first.height = 0)
    (conditionHeight : condition.height = 1)
    (roundHeight : round.height = 0)
    (nextHeight : next.height = 0)
    (start : Labelled state.numbered first middle)
    (decision : Labelled middle condition decided)
    (inner : Labelled (decided.lift (-1)) round between)
    (advance : Labelled between next after) :
    Labelled state
      (loopLines state.nextLabel first
        (condition ++ leaveLines state.nextLabel) round next)
      after := by
  have startGrows := start.grows
  have decisionGrows := decision.grows
  have innerGrows := inner.grows
  simp only [State.numbered_nextLabel, State.lift_nextLabel] at startGrows innerGrows
  refine enclose ((((start.append decision).append test).append inner).append advance) ?_
    ?_
  · intro number height different
    simp [loopLines, leaveLines, testLines, define, instrs, Code.marks, Code.mark?,
      Line.defined?, Line.target?, Line.rise, different.symm]
  · intro height
    have firstMarks : first.marks state.nextLabel height = [] :=
      start.marks_eq_nil (.inl (Nat.lt_succ_self _)) height
    have conditionMarks : condition.marks state.nextLabel height = [] :=
      decision.marks_eq_nil (.inl startGrows) height
    have roundMarks : round.marks state.nextLabel height = [] :=
      inner.marks_eq_nil (.inl (by simp only [State.lift_nextLabel]; omega)) height
    have nextMarks : next.marks state.nextLabel height = [] :=
      advance.marks_eq_nil (.inl (by omega)) height
    have marks : Code.marks state.nextLabel height
        (loopLines state.nextLabel first (condition ++ leaveLines state.nextLabel)
          round next) =
        [.landing .start height, .leap .stop height, .leap .start height,
          .landing .stop height] := by
      simp [loopLines, leaveLines, testLines, define, instrs, Code.marks, Code.mark?,
        Line.defined?, Line.target?, Line.rise, firstHeight, conditionHeight, roundHeight,
        nextHeight, firstMarks, conditionMarks, roundMarks, nextMarks]
    rw [marks]
    refine ⟨by simp [or_comm], ?_, by simp [Code.Mark.isLeap]⟩
    intro role
    cases role <;> simp [Code.Mark.isLanding]

end Labelled

namespace Piece

variable {state middle between after : State}

/-- The number of a label has nothing to do with the stack. -/
theorem of_numbered
    {low rise : Int}
    {code : Code}
    (piece : Piece low rise state.numbered code after) :
    Piece low rise state code after :=
  { piece with depth := piece.depth, calls := piece.calls }

/-- A conjunction or disjunction pushes one word. -/
theorem shortCircuit
    {jump : Label -> Instr}
    {role : Role}
    {decided undecided : Int}
    {number : Nat}
    {left right : Code}
    (conditional : jump = .jumpEq ∨ jump = .jumpNe)
    (first : Piece 0 1 state left middle)
    (second : Piece 0 1 (middle.lift (-1)) right after) :
    Piece 0 1 state
      (shortCircuitLines jump role decided undecided number left right) after := by
  have leave (state : State) :
      Piece 0 0 state (instrs [jump (.numbered role number)]) state := by
    rcases conditional with rfl | rfl
    · exact jumpEq _
    · exact jumpNe _
  have skip (state : State) :
      Piece 0 0 state (instrs [.set .rax undecided, .jump (.numbered .stop number)])
        state :=
    (set undecided).append (Piece.jump _)
  have piece := (((((((((first.append test).append (leave _)).append second).append
    test).append (leave _)).append (skip _)).append (define role number)).append
    (set decided)).append (define .stop number)).append push
  have restored : (after.lift (-1)).lift 1 = after := by simp
  rw [restored] at piece
  exact piece.restate (by omega) (by omega)

/-- A branch leaves the stack as it was. -/
theorem branch
    {number : Nat}
    {condition first second : Code}
    (decision : Piece 0 1 state condition middle)
    (taken : Piece 0 0 (middle.lift (-1)) first between)
    (other : Piece 0 0 between second after) :
    Piece 0 0 state (branchLines number condition first second) after := by
  have piece := ((((((decision.append test).append
    (jumpEq (.numbered .otherwise number))).append taken).append
    (jump (.numbered .stop number))).append (define .otherwise number)).append
      other).append
    (define .stop number)
  exact piece.restate (by omega) (by omega)

/-- A loop leaves the stack as it was. -/
theorem loop
    {number : Nat}
    {decided : State}
    {first condition round next : Code}
    (start : Piece 0 0 state first middle)
    (decision : Piece 0 0 middle condition decided)
    (inner : Piece 0 0 decided round between)
    (advance : Piece 0 0 between next after) :
    Piece 0 0 state (loopLines number first condition round next) after := by
  have piece := (((((start.append (define .start number)).append decision).append
    inner).append advance).append (jump (.numbered .start number))).append
    (define .stop number)
  exact piece.restate (by omega) (by omega)

/-- A value that is tested for leaving a loop. -/
theorem leave
    {number : Nat}
    {condition : Code}
    (decision : Piece 0 1 state condition middle) :
    Piece 0 0 state (condition ++ leaveLines number) (middle.lift (-1)) := by
  have piece := decision.append (test.append (jumpEq (.numbered .stop number)))
  exact piece.restate (by omega) (by omega)

/-- A store replaces an address and a value by the value. -/
theorem store (ty : Ty) : Piece (-2) (-1) state (storeLines ty) (state.lift (-1)) := by
  have popped : Piece (-1) (-1) state (instrs [.pop .rdi]) (state.lift (-1)) :=
    pop .rdi (by decide)
  have piece :=
    ((popped.append (pop .rax (by decide))).append (Piece.plain (plain_stored ty))).append
      push
  have restored : ((state.lift (-1)).lift (-1)).lift 1 = state.lift (-1) := by simp
  rw [restored] at piece
  exact piece.restate (by omega) (by omega)

/-- A load works on the top of the stack. -/
theorem load (ty : Ty) : Piece (-1) 0 state (loadLines ty) state := by
  unfold loadLines
  split
  · exact (Piece.plain (by simp [Code.Plain])).restate (by omega) rfl
  · exact top (by simp [Code.Plain, instrs, Line.isPlain])

/-- A conversion works on the top of the stack. -/
theorem convert (source target : Ty) :
    Piece (-1) 0 state (convertLines source target) state := by
  have nothing : Piece (-1) 0 state [] state :=
    (Piece.plain (by simp [Code.Plain])).restate (by omega) rfl
  unfold convertLines
  split
  · exact nothing
  · split
    · exact top (by simp [Code.Plain, truth, instrs, Line.isPlain])
    · split
      · exact top (plain_extend _)
      · exact nothing

/-- Adding a member's offset works on the top of the stack. -/
theorem offset (bytes : Int) : Piece (-1) 0 state (offsetLines bytes) state := by
  unfold offsetLines
  split
  · exact (Piece.plain (by simp [Code.Plain])).restate (by omega) rfl
  · exact top (by simp [Code.Plain, instrs, Line.isPlain])

end Piece

/-! ## All generated code -/

namespace Task

/-- Number of words that the code for a task pushes. -/
def rise : Task -> Nat
  | address _ | value _ => 1
  | values ids => ids.length
  | discard _ | statement _ | optional _ | statements _ => 0

end Task

/-- Lines that neither define nor jump to numbered labels. -/
def Quiet (code : Code) : Prop := ∀ number start, code.marks number start = []

namespace Quiet

theorem plain {code : Code} (plain : code.Plain) : Quiet code := plain.marks_eq_nil

theorem append {first second : Code} (left : Quiet first) (right : Quiet second) :
    Quiet (first ++ second) := by
  intro number start
  rw [Code.marks_append, left, right]
  rfl

theorem push (reg : Reg) : Quiet (instrs [.push reg]) := fun _ _ => rfl

theorem pop (reg : Reg) : Quiet (instrs [.pop reg]) := fun _ _ => rfl

theorem exit (function : String) : Quiet (instrs [.jump (.exit function)]) :=
  fun _ _ => rfl

theorem goto (function name : String) : Quiet (instrs [.jump (.named function name)]) :=
  fun _ _ => rfl

theorem line (number : Nat) : Quiet [.directive (.loc number)] := fun _ _ => rfl

theorem top {list : List Instr} (plain : (instrs list).Plain) : Quiet (topLines list) :=
  ((pop .rax).append (Quiet.plain plain)).append (push .rax)

theorem pops (regs : List Reg) : Quiet (popLines regs) := by
  intro number start
  unfold popLines
  generalize regs.reverse = ordered
  induction ordered generalizing start with
  | nil => rfl
  | cons reg rest hypothesis => exact hypothesis _

theorem call (depth : Int) (name : String) : Quiet (callLines depth name) := by
  intro number start
  unfold callLines
  split <;> rfl

theorem store (ty : Ty) : Quiet (storeLines ty) :=
  (((pop .rdi).append (pop .rax)).append (Quiet.plain (plain_stored ty))).append
    (push .rax)

theorem load (ty : Ty) : Quiet (loadLines ty) := by
  unfold loadLines
  split
  · exact fun _ _ => rfl
  · exact top (by simp [Code.Plain, instrs, Line.isPlain])

theorem convert (source target : Ty) : Quiet (convertLines source target) := by
  unfold convertLines
  split
  · exact fun _ _ => rfl
  · split
    · exact top (by simp [Code.Plain, truth, instrs, Line.isPlain])
    · split
      · exact top (plain_extend _)
      · exact fun _ _ => rfl

theorem offset (bytes : Int) : Quiet (offsetLines bytes) := by
  unfold offsetLines
  split
  · exact fun _ _ => rfl
  · exact top (by simp [Code.Plain, instrs, Line.isPlain])

end Quiet

/-- The stack and the labels of the code for a task. -/
structure Disciplined (rise : Int) (state : State) (code : Code)
    (after : State) : Prop where
  piece : Piece 0 rise state code after
  labelled : Labelled state code after

namespace Disciplined

variable {rise more low : Int} {state middle after : State} {code first second : Code}

/-- One task behind another. -/
theorem append
    (left : Disciplined rise state first middle)
    (right : Disciplined more middle second after)
    (enough : 0 ≤ rise) :
    Disciplined (rise + more) state (first ++ second) after :=
  ⟨(left.piece.append right.piece).restate (by omega) rfl,
    left.labelled.append right.labelled⟩

/-- Lines without labels behind a task that leaves them enough words. -/
theorem finish
    (task : Disciplined rise state first middle)
    (piece : Piece low more middle second after)
    (quiet : Quiet second)
    (same : after.nextLabel = middle.nextLabel)
    (enough : 0 ≤ rise + low) :
    Disciplined (rise + more) state (first ++ second) after :=
  ⟨(task.piece.append piece).restate (by omega) rfl,
    task.labelled.append (.silent quiet same)⟩

theorem restate
    {other : Int}
    (task : Disciplined rise state code after)
    (equal : other = rise) :
    Disciplined other state code after := by
  rw [equal]
  exact task

/-- Lines without labels that need no words of their own. -/
theorem quiet
    (piece : Piece 0 rise state code after)
    (quiet : Quiet code)
    (same : after.nextLabel = state.nextLabel) :
    Disciplined rise state code after :=
  ⟨piece, .silent quiet same⟩

end Disciplined

/-- All generated code keeps the discipline.  The induction is over the rules; each rule
puts the code of the parts one behind the other or is one of the constructs above. -/
theorem Emits.disciplined
    {context : Context}
    {task : Task}
    {state after : State}
    {code : Code}
    (emitted : Emits context task state code after) :
    Disciplined task.rise state code after := by
  have plainPush {list : List Instr} (plain : (instrs list).Plain) (state : State) :
      Disciplined 1 state (instrs list ++ instrs [.push .rax]) (state.lift 1) :=
    .quiet (((Piece.plain plain).append .push).restate (by omega) (by omega))
      ((Quiet.plain plain).append (.push .rax)) rfl
  have nothing (state : State) : Disciplined 0 state [] state :=
    .quiet (.plain (by simp [Code.Plain])) (fun _ _ => rfl) rfl
  have located {state after : State} {code : Code} (line : Nat)
      (inner : Disciplined 0 state code after) :
      Disciplined 0 state ([.directive (.loc line)] ++ code) after := by
    have here : Disciplined 0 state [.directive (.loc line)] state :=
      .quiet (.plain (by simp [Code.Plain, Line.isPlain])) (.line line) rfl
    exact here.append inner (by omega)
  induction emitted with
  | localAddress => exact plainPush (by simp [Code.Plain, instrs, Line.isPlain]) _
  | globalAddress => exact plainPush (by simp [Code.Plain, instrs, Line.isPlain]) _
  | derefAddress _ _ _ hypothesis => exact hypothesis
  | memberAddress _ _ _ _ hypothesis =>
      exact hypothesis.finish (.offset _) (.offset _) rfl (by simp [Task.rise])
  | num => exact plainPush (by simp [Code.Plain, instrs, Line.isPlain]) _
  | object _ _ _ _ hypothesis =>
      exact hypothesis.finish (.load _) (.load _) rfl (by simp [Task.rise])
  | deref _ _ _ _ hypothesis =>
      exact hypothesis.finish (.load _) (.load _) rfl (by simp [Task.rise])
  | addr _ _ _ _ hypothesis => exact hypothesis
  | assign _ _ _ _ _ left right =>
      exact (left.append right (by simp [Task.rise])).finish (.store _) (.store _) rfl
        (by simp [Task.rise])
  | comma _ _ _ _ _ left right =>
      exact (left.finish (.pop .rax (by decide)) (.pop .rax) rfl
        (by simp [Task.rise])).append right (by simp [Task.rise])
  | stmtExpr _ _ _ _ _ _ _ _ init inner =>
      exact init.append inner (by simp [Task.rise])
  | cast _ _ _ _ _ hypothesis =>
      exact hypothesis.finish (.convert _ _) (.convert _ _) rfl (by simp [Task.rise])
  | unary _ _ _ _ hypothesis =>
      exact hypothesis.finish (.top (plain_unaryOperation _ _))
        (.top (plain_unaryOperation _ _)) rfl (by simp [Task.rise])
  | logAnd _ _ _ _ _ first second =>
      exact ⟨.shortCircuit (.inl rfl) first.piece.of_numbered second.piece,
        .shortCircuit (.inl ⟨rfl, rfl⟩) first.piece.height second.piece.height
          first.labelled second.labelled⟩
  | logOr _ _ _ _ _ first second =>
      exact ⟨.shortCircuit (.inr rfl) first.piece.of_numbered second.piece,
        .shortCircuit (.inr ⟨rfl, rfl⟩) first.piece.height second.piece.height
          first.labelled second.labelled⟩
  | binary _ _ _ _ _ _ _ first second =>
      have operands := first.append second (by simp [Task.rise])
      exact (operands.finish (.pop .rdi (by decide)) (.pop .rdi) rfl
        (by simp [Task.rise])).finish
        (.top (plain_operation _ _)) (.top (plain_operation _ _)) rfl
          (by simp [Task.rise])
  | @call _ _ ty _ args entry _ _ after _ _ _ few _ _ hypothesis =>
      have count : ((argumentRegisters.take args.length).length : Int) = args.length := by
        rw [List.length_take]
        omega
      have values : Disciplined args.length _ _ after := hypothesis
      have free :
          ∀ reg ∈ argumentRegisters.take args.length, reg ≠ .rsp ∧ reg ≠ .rbp := by
        intro reg member
        have listed := List.mem_of_mem_take member
        revert listed
        cases reg <;> decide
      have popped := values.finish (.pops free) (.pops _) rfl (by omega)
      rw [count] at popped
      have called := popped.finish (.call entry.name) (.call _ _) rfl (by omega)
      have pushed := called.append (plainPush (plain_narrow ty) _) (by omega)
      have depths : -(args.length : Int) + 1 = 1 - args.length := by omega
      rw [State.lift_depth, ← Int.sub_eq_add_neg, State.lift_lift, depths,
        ← List.append_assoc] at pushed
      refine pushed.restate ?_
      simp only [Task.rise]
      omega
  | noValues => exact nothing _
  | moreValues _ _ head tail =>
      refine (head.append tail (by simp [Task.rise])).restate ?_
      simp only [Task.rise, List.length_cons]
      omega
  | discardNone => exact nothing _
  | discardSome _ hypothesis =>
      exact hypothesis.finish (.pop .rax (by decide)) (.pop .rax) rfl
        (by simp [Task.rise])
  | branch _ _ _ _ _ decision taken other =>
      refine located _ ⟨?_, ?_⟩
      · exact .branch decision.piece.of_numbered taken.piece other.piece
      · exact .branch decision.piece.height taken.piece.height other.piece.height
          decision.labelled taken.labelled other.labelled
  | loop _ _ _ _ _ start inner advance =>
      refine located _ ⟨?_, ?_⟩
      · exact .loop start.piece.of_numbered (.plain (by simp [Code.Plain])) inner.piece
          advance.piece
      · exact .loop start.piece.height inner.piece.height advance.piece.height
          start.labelled inner.labelled advance.labelled
  | loopWhile _ _ _ _ _ _ start decision inner advance =>
      refine located _ ⟨?_, ?_⟩
      · exact .loop start.piece.of_numbered decision.piece.leave inner.piece advance.piece
      · exact .loopWhile start.piece.height decision.piece.height inner.piece.height
          advance.piece.height start.labelled decision.labelled inner.labelled
          advance.labelled
  | block _ _ _ hypothesis => exact located _ hypothesis
  | ret _ _ _ hypothesis =>
      exact (located _ hypothesis).finish (.jump _) (.exit _) rfl (by omega)
  | exprStmt _ _ _ hypothesis => exact located _ hypothesis
  | goto => exact located _ ((nothing _).finish (.jump _) (.goto _ _) rfl (by omega))
  | label _ _ _ hypothesis =>
      have place (name : String) (state : State) :
          Disciplined 0 state [.label (.named context.function name)] state :=
        .quiet (.plain (by simp [Code.Plain, Line.isPlain])) (fun _ _ => rfl) rfl
      rw [List.append_assoc]
      exact located _ ((place _ _).append hypothesis (by omega))
  | optionalNone => exact nothing _
  | optionalSome _ hypothesis => exact hypothesis
  | noStatements => exact nothing _
  | moreStatements _ _ head tail => exact head.append tail (by simp [Task.rise])

/-! ## The discipline in terms of lines -/

/-- What emitted lines do with the stack, in terms of the lines themselves: they push
`rise` words more than they pop, and never more pops than pushes come first.  A jump to a
numbered label finds the label once among the lines, at its own height.  A call finds
the words on the stack, those from before the lines included, and the padding to be a
multiple of sixteen bytes. -/
structure StackDiscipline (rise : Nat) (state : State) (code : Code) (after : State) :
    Prop where
  depth : after.depth = state.depth + rise
  pushes : code.pushes = code.pops + rise
  accumulator : ∀ reg, .instr (.push reg) ∈ code -> reg = .rax
  covered : ∀ before : Code, before <+: code -> before.pops ≤ before.pushes
  jumps : ∀ (before rest : Code) (line : Line) (role : Role) (number : Nat),
    code = before ++ line :: rest -> line.target? = some (.numbered role number) ->
    ∃ above below : Code, code = above ++ .label (.numbered role number) :: below ∧
      above.height = before.height ∧ .label (.numbered role number) ∉ above ++ below
  calls : ∀ (before rest : Code) (name : String),
    code = before ++ .instr (.call name) :: rest ->
    (8 * (state.depth + before.height) + before.padding) % 16 = 0

namespace Disciplined

variable {rise : Nat} {state after : State} {code : Code}

/-- A jump to a numbered label is marked. -/
theorem mem_marks_of_target
    {before rest : Code}
    {line : Line}
    {role : Role}
    {number : Nat}
    (target : line.target? = some (.numbered role number)) :
    .leap role before.height ∈ Code.marks number 0 (before ++ line :: rest) := by
  have mark : Code.mark? number before.height line = some (.leap role before.height) := by
    cases line with
    | directive order => simp [Line.target?] at target
    | label place => simp [Line.target?] at target
    | instr step => simp [Code.mark?, Line.defined?, target]
  simp [Code.marks, mark]

/-- A mark of a definition comes from the line that defines the label. -/
theorem eq_label_of_landing
    {line : Line}
    {role : Role}
    {number : Nat}
    {height place : Int}
    (mark : Code.mark? number height line = some (.landing role place)) :
    line = .label (.numbered role number) ∧ place = height := by
  unfold Code.mark? at mark
  split at mark
  · rename_i found own defined
    split at mark
    · cases line <;> simp_all [Line.defined?]
    · cases mark
  · split at mark <;> simp at mark
  · cases mark

/-- Disciplined code, in terms of its lines. -/
theorem stackDiscipline (disciplined : Disciplined rise state code after) :
    StackDiscipline rise state code after where
  depth := disciplined.piece.depth
  pushes := by
    have height := disciplined.piece.height
    rw [Code.height_eq] at height
    omega
  accumulator := disciplined.piece.pushes
  covered := by
    intro before start
    have floor := disciplined.piece.floor
    have least := Code.floor_le_height start
    rw [Code.height_eq] at least
    omega
  jumps := by
    intro before rest line role number split target
    obtain ⟨lands, once, _⟩ := disciplined.labelled.landed number 0
    have leap : .leap role before.height ∈ code.marks number 0 := by
      rw [split]
      exact mem_marks_of_target target
    obtain ⟨above, found, below, divided, mark⟩ :=
      Code.mem_marks_split (lands role before.height leap)
    obtain ⟨rfl, height⟩ := eq_label_of_landing mark
    refine ⟨above, below, divided, by omega, ?_⟩
    -- The label is counted once, and that is the one between the two parts.
    have count := once role
    rw [Code.countP_isLanding, divided, List.count_append, List.count_cons_self] at count
    intro again
    have more := List.count_pos_iff.mpr again
    rw [List.count_append] at more
    omega
  calls := by
    intro before rest name split
    have aligned := disciplined.piece.calls
    rw [split] at aligned
    have divided := aligned.at_call
    rw [← divided]
    congr 1
    omega

end Disciplined

end Emit
end MiniC
