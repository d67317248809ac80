import MiniC.Proofs.Asm.Height
import MiniC.Proofs.Machine.Run

/-!
# A machine that calls functions

A text may call functions, those of the text and others.  A call is one move of the
machine: what a called function does is a relation between the machine before the call and
after the return, and nothing is assumed of it here.

Where a run is tells how it came there.  A line that is no label is reached only from the
line above it, so the last instructions before a position of a run have been run.
-/

namespace MiniC
namespace Asm

open Emit

/-- What the functions of each name may do to a machine from the call to the return. -/
abbrev Callees := String -> Machine -> Machine -> Prop

/-- One move of a machine in a text. -/
inductive Moves (names : Names) (callees : Callees) (text : Code) : Config ->
    Config -> Prop
  | step {before after : Config}
      (taken : step names text before = some after) :
      Moves names callees text before after
  | call {name : String} {rest : Code} {machine after : Machine}
      (returns : callees name machine after) :
      Moves names callees text ⟨.instr (.call name) :: rest, machine⟩ ⟨rest, after⟩

/-- Any number of moves. -/
def Runs (names : Names) (callees : Callees) (text : Code) : Config -> Config -> Prop :=
  Relation.ReflTransGen (Moves names callees text)

namespace Instr

/-- Whether an instruction is run without looking at the text or at other functions. -/
def isStraight : Instr -> Bool
  | jump _ | jumpEq _ | jumpNe _ | call _ => false
  | _ => true

end Instr

namespace Line

/-- What a line does to a machine that goes on with the next line. -/
def Passes (names : Names) (callees : Callees) (before after : Machine) : Line -> Prop
  | directive (.loc _) | label _ => after = before
  | directive _ => False
  | instr (.jump _) => False
  | instr (.jumpEq _) | instr (.jumpNe _) => after = before
  | instr (.call name) => callees name before after
  | instr step => step.run names before = some after

/-- A straight instruction is run. -/
theorem passes_instr {names : Names} {callees : Callees} {before after : Machine}
    {step : Instr} (straight : step.isStraight = true) :
    (instr step).Passes names callees before after ↔
    step.run names before = some after := by
  cases step with
  | jump | jumpEq | jumpNe | call => cases straight
  | _ => rfl

end Line

section Moves

variable {names : Names} {callees : Callees} {text rest : Code} {before after : Machine}

/-- The definition of a label that is found stands before what is left to run. -/
theorem Code.exists_of_after? {target : Label} (found : text.after? target = some rest) :
    ∃ above, text = above ++ .label target :: rest := by
  induction text with
  | nil => cases found
  | cons line text hypothesis =>
      unfold after? at found
      split at found
      · rename_i same
        cases found
        exact ⟨[], by rw [same]; rfl⟩
      · obtain ⟨above, rfl⟩ := hypothesis found
        exact ⟨line :: above, rfl⟩

/-- A conditional jump goes to its label or on to the next line. -/
theorem Machine.branch_cases {cond : Cond} {target : Label} {goal : Code}
    (decided : before.branch text rest cond target = some goal) :
    goal = rest ∨ text.after? target = some goal := by
  unfold Machine.branch at decided
  cases flags : before.flags with
  | none =>
      rw [flags] at decided
      cases decided
  | some flags =>
      rw [flags, Option.bind_eq_bind, Option.bind_some] at decided
      split at decided
      · exact .inr decided
      · exact .inl (Option.some.inj decided).symm

/-- A straight instruction goes on with the next line. -/
theorem step_straight {instr : Instr} (straight : instr.isStraight = true) :
    step names text ⟨.instr instr :: rest, before⟩ =
      (instr.run names before).map (Config.mk rest) := by
  cases instr with
  | jump | jumpEq | jumpNe | call => cases straight
  | _ => rfl

/-- A machine moves to the next line, or along a jump. -/
theorem Moves.cases {code : Code}
    (moves : Moves names callees text ⟨code, before⟩ ⟨rest, after⟩) :
    ∃ line tail, code = line :: tail ∧
      (tail = rest ∧ line.Passes names callees before after ∨
        ∃ target, line.target? = some target ∧ text.after? target = some rest ∧
          after = before) := by
  cases moves with
  | call returns => exact ⟨_, _, rfl, .inl ⟨rfl, returns⟩⟩
  | step taken =>
      cases code with
      | nil => cases taken
      | cons line tail =>
          refine ⟨line, tail, rfl, ?_⟩
          have conditional {cond : Cond} {target : Label}
              (jumps : (before.branch text tail cond target).map (Config.mk · before) =
                some ⟨rest, after⟩) :
              tail = rest ∧ after = before ∨
                text.after? target = some rest ∧ after = before := by
            obtain ⟨goal, decided, equal⟩ := Option.map_eq_some_iff.mp jumps
            cases equal
            rcases Machine.branch_cases decided with rfl | jumped
            · exact .inl ⟨rfl, rfl⟩
            · exact .inr ⟨jumped, rfl⟩
          cases line with
          | label place =>
              cases taken
              exact .inl ⟨rfl, rfl⟩
          | directive order =>
              cases order with
              | loc line =>
                  cases taken
                  exact .inl ⟨rfl, rfl⟩
              | _ => cases taken
          | instr step =>
              by_cases straight : step.isStraight = true
              · rw [step_straight straight] at taken
                obtain ⟨next, ran, equal⟩ := Option.map_eq_some_iff.mp taken
                cases equal
                exact .inl ⟨rfl, (Line.passes_instr straight).mpr ran⟩
              cases step with
              | jump target =>
                  obtain ⟨goal, found, equal⟩ := Option.map_eq_some_iff.mp taken
                  cases equal
                  exact .inr ⟨target, rfl, found, rfl⟩
              | jumpEq target | jumpNe target =>
                  rcases conditional taken with ⟨next, same⟩ | ⟨found, same⟩
                  · exact .inl ⟨next, same⟩
                  · exact .inr ⟨target, rfl, found, same⟩
              | call => cases taken
              | _ => exact absurd rfl straight

end Moves

/-! ## Runs that can be computed -/

/-- One move of a machine, where each called function does what is given for its name. -/
def move? (names : Names) (calls : String -> Machine -> Machine) (text : Code) :
    Config -> Option Config
  | ⟨.instr (.call name) :: rest, machine⟩ => some ⟨rest, calls name machine⟩
  | config => step names text config

/-- A number of moves. -/
def moves? (names : Names) (calls : String -> Machine -> Machine) (text : Code) :
    Nat -> Config -> Option Config
  | 0, config => some config
  | count + 1, config =>
      (move? names calls text config).bind (moves? names calls text count)

section Computed

variable {names : Names} {calls : String -> Machine -> Machine} {text : Code}

theorem Moves.of_move? {before after : Config}
    (moved : move? names calls text before = some after) :
    Moves names (fun name machine next => next = calls name machine) text
      before after := by
  unfold move? at moved
  split at moved
  · cases moved
    exact .call rfl
  · exact .step moved

theorem Runs.of_moves? {count : Nat} {before after : Config}
    (moved : moves? names calls text count before = some after) :
    Runs names (fun name machine next => next = calls name machine) text
      before after := by
  induction count generalizing before with
  | zero =>
      cases moved
      exact .refl
  | succ count hypothesis =>
      obtain ⟨middle, first, others⟩ := Option.bind_eq_some_iff.mp moved
      exact .head (.of_move? first) (hypothesis others)

/-- A run is known from where it ends and what is read off its last machine. -/
theorem Runs.exists_of_moves? {α : Type} {count : Nat} {before : Config} {rest : Code}
    {read : Machine -> α} {value : α}
    (moved : (moves? names calls text count before).map
      (fun config => (config.rest, read config.machine)) = some (rest, value)) :
    ∃ last, Runs names (fun name machine next => next = calls name machine) text before
      ⟨rest, last⟩ ∧ read last = value := by
  obtain ⟨⟨_, last⟩, ran, equal⟩ := Option.map_eq_some_iff.mp moved
  cases equal
  exact ⟨last, .of_moves? ran, rfl⟩

end Computed

/-! ## Positions of runs -/

/-- A run from the entry of a function comes to a position with the given machine. -/
def Visits (names : Names) (callees : Callees) (text rest : Code) (machine : Machine) :
    Prop :=
  ∃ name entry start, text.after? (.symbol name) = some entry ∧
    Runs names callees text ⟨entry, start⟩ ⟨rest, machine⟩

namespace Visits

variable {names : Names} {callees : Callees} {text above rest : Code} {line : Line}
  {machine : Machine}

/-- What is left to run is a part of the text. -/
theorem exists_above (visits : Visits names callees text rest machine) :
    ∃ above, text = above ++ rest := by
  obtain ⟨name, entry, start, entered, run⟩ := visits
  generalize reached : (⟨rest, machine⟩ : Config) = config at run
  induction run generalizing rest machine with
  | refl =>
      cases reached
      obtain ⟨above, equal⟩ := Code.exists_of_after? entered
      exact ⟨above ++ [.label (.symbol name)], by simp [equal]⟩
  | @tail middle last _ moves hypothesis =>
      subst reached
      obtain ⟨above, equal⟩ := hypothesis rfl
      obtain ⟨line, tail, code, ⟨rfl, _⟩ | ⟨target, _, found, _⟩⟩ := moves.cases
      · exact ⟨above ++ [line], by simp [equal, code]⟩
      · obtain ⟨before, jumped⟩ := Code.exists_of_after? found
        exact ⟨before ++ [.label target], by simp [jumped]⟩

/-- Two parts of a text behind one line each that leave the same behind them. -/
theorem line_unique {other : Line} {front back : Code}
    (first : text = front ++ line :: rest)
    (second : text = back ++ other :: rest) : line = other := by
  have same := first.symm.trans second
  have lengths : front.length = back.length := by
    have total := congrArg List.length same
    simp only [List.length_append, List.length_cons] at total
    omega
  exact (List.cons.inj (List.append_inj same lengths).2).1

/-- A run comes to a position from the entry of a function, from the line above, or along
a jump to the label above. -/
theorem predecessor (visits : Visits names callees text rest machine)
    (divided : text = above ++ line :: rest) :
    (∃ name, line = .label (.symbol name)) ∨
      (∃ before, Visits names callees text (line :: rest) before ∧
        line.Passes names callees before machine) ∨
      ∃ target jumping tail, line = .label target ∧ jumping.target? = some target ∧
        Visits names callees text (jumping :: tail) machine := by
  obtain ⟨name, entry, start, entered, run⟩ := visits
  have arrived {target : Label} (found : text.after? target = some rest) :
      line = .label target := by
    obtain ⟨front, equal⟩ := Code.exists_of_after? found
    exact line_unique divided equal
  rcases Relation.ReflTransGen.cases_tail run with same | ⟨middle, earlier, moves⟩
  · cases same
    exact .inl ⟨name, arrived entered⟩
  · have there : Visits names callees text middle.rest middle.machine :=
      ⟨name, entry, start, entered, earlier⟩
    obtain ⟨front, whole⟩ := there.exists_above
    obtain ⟨own, tail, code, ⟨rfl, passes⟩ | ⟨target, jumps, found, rfl⟩⟩ := moves.cases
    · rw [code] at whole there
      obtain rfl := line_unique divided whole
      exact .inr (.inl ⟨middle.machine, there, passes⟩)
    · rw [code] at there
      exact .inr (.inr ⟨target, own, tail, arrived found, jumps, there⟩)

/-- A run comes to the position behind a line that is no label from that line. -/
theorem back (visits : Visits names callees text rest machine)
    (divided : text = above ++ line :: rest) (noLabel : line.defined? = none) :
    ∃ before, Visits names callees text (line :: rest) before ∧
      line.Passes names callees before machine := by
  rcases visits.predecessor divided with ⟨_, rfl⟩ | passed | ⟨_, _, _, rfl, _⟩
  · cases noLabel
  · exact passed
  · cases noLabel

/-- A run comes to the position behind straight instructions through all of them. -/
theorem back_instrs {list : List Instr} (visits : Visits names callees text rest machine)
    (divided : text = above ++ instrs list ++ rest)
    (straight : ∀ instr ∈ list, instr.isStraight = true) :
    ∃ before, Visits names callees text (instrs list ++ rest) before ∧
      Instr.runAll names before list = some machine := by
  induction list generalizing above with
  | nil => exact ⟨machine, visits, rfl⟩
  | cons instr list hypothesis =>
      have further : text = (above ++ [.instr instr]) ++ instrs list ++ rest := by
        rw [divided]
        simp [instrs]
      obtain ⟨middle, there, ran⟩ := hypothesis further
        fun other member => straight other (List.mem_cons_of_mem instr member)
      have here : text = above ++ .instr instr :: (instrs list ++ rest) := by
        rw [divided]
        simp [instrs]
      obtain ⟨before, earlier, passes⟩ := there.back here rfl
      rw [Line.passes_instr (straight instr List.mem_cons_self)] at passes
      refine ⟨before, earlier, ?_⟩
      rw [Instr.runAll, passes]
      exact ran

end Visits

end Asm
end MiniC
