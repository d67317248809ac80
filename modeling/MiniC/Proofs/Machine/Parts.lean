import MiniC.Proofs.Machine.Call

/-!
# Runs through the parts of a text

A text made of two parts that do not jump into each other is run one part after the other:
the run leaves the first part once, at its end.  Up to there it is a run of the first part
as a text of its own, and from there one of the second.

The runs here leave alone what waits on the stack: no move, neither a store nor a call,
changes the memory between the stack pointer and a fixed base.
-/

namespace MiniC
namespace Asm

open Emit

/-! ## Runs that spare the stack -/

/-- The memory from the stack pointer up to a base is not changed. -/
def Spares (base : Word) (before after : Machine) : Prop :=
  ∀ place, Covers (before.regs .rsp) (base - before.regs .rsp).toNat place ->
    after.memory place = before.memory place

/-- Any number of moves that leave alone what is on the stack below a base. -/
def SparingRuns (names : Names) (callees : Callees) (base : Word) (text : Code) :
    Config -> Config -> Prop :=
  Relation.ReflTransGen fun before after =>
    Moves names callees text before after ∧ Spares base before.machine after.machine

/-! ## Labels in parts of a text -/

namespace Code

variable {first second rest : Code} {target : Label}

theorem after?_append_left (found : first.after? target = some rest) :
    (first ++ second).after? target = some (rest ++ second) := by
  induction first with
  | nil => cases found
  | cons line first hypothesis =>
      rw [List.cons_append]
      unfold after? at found ⊢
      split at found
      · cases found
        rw [if_pos ‹_›]
      · rw [if_neg ‹_›]
        exact hypothesis found

theorem after?_append_right (new : .label target ∉ first) :
    (first ++ second).after? target = second.after? target := by
  induction first with
  | nil => rfl
  | cons line first hypothesis =>
      have other : line ≠ .label target := by
        rintro rfl
        exact new List.mem_cons_self
      rw [List.cons_append, after?, if_neg other]
      exact hypothesis fun member => new (List.mem_cons_of_mem line member)

/-- A label that is defined is found. -/
theorem exists_after?_of_mem (defined : .label target ∈ first) :
    ∃ rest, first.after? target = some rest := by
  induction first with
  | nil => cases defined
  | cons line first hypothesis =>
      unfold after?
      by_cases own : line = .label target
      · exact ⟨first, if_pos own⟩
      · rcases List.mem_cons.mp defined with same | later
        · exact absurd same.symm own
        · obtain ⟨rest, found⟩ := hypothesis later
          exact ⟨rest, by rw [if_neg own, found]⟩

/-- No line of one text jumps to a label of another. -/
def Separate (first second : Code) : Prop :=
  ∀ line ∈ first, ∀ target, line.target? = some target -> .label target ∉ second

end Code

/-! ## Moves in parts of a text -/

section Parts

variable {names : Names} {callees : Callees} {base : Word} {first second : Code}
  {start last : Machine}

/-- A machine moves in the same way in another text that knows the labels of the line. -/
theorem Moves.transfer {text other tail rest : Code} {line : Line} (otherTail : Code)
    (moves : Moves names callees text ⟨line :: tail, start⟩ ⟨rest, last⟩)
    (known : ∀ target, line.target? = some target ->
      (∃ goal, text.after? target = some goal) ->
      ∃ goal, other.after? target = some goal) :
    ∃ otherRest, Moves names callees other ⟨line :: otherTail, start⟩ ⟨otherRest, last⟩ ∧
      (rest = tail ∧ otherRest = otherTail ∨
        ∃ target, line.target? = some target ∧ text.after? target = some rest ∧
          other.after? target = some otherRest) := by
  cases moves with
  | call returns => exact ⟨otherTail, .call returns, .inl ⟨rfl, rfl⟩⟩
  | step taken =>
      have conditional {cond : Cond} {target : Label}
          (aims : line.target? = some target)
          (own : ∀ text tail, Asm.step names text ⟨line :: tail, start⟩ =
            (start.branch text tail cond target).map (⟨·, start⟩)) :
          ∃ otherRest, Moves names callees other ⟨line :: otherTail, start⟩
            ⟨otherRest, last⟩ ∧ (rest = tail ∧ otherRest = otherTail ∨
              ∃ target, line.target? = some target ∧ text.after? target = some rest ∧
                other.after? target = some otherRest) := by
        rw [own] at taken
        obtain ⟨goal, decided, equal⟩ := Option.map_eq_some_iff.mp taken
        cases equal
        unfold Machine.branch at decided own
        cases flags : start.flags with
        | none =>
            rw [flags] at decided
            cases decided
        | some flags =>
            simp only [flags, Option.bind_eq_bind, Option.bind_some] at decided own
            split at decided
            · obtain ⟨goal, found⟩ := known target aims ⟨rest, decided⟩
              refine ⟨goal, .step ?_, .inr ⟨target, aims, decided, found⟩⟩
              rw [own, if_pos ‹_›, found]
              rfl
            · refine ⟨otherTail, .step ?_, .inl ⟨(Option.some.inj decided).symm, rfl⟩⟩
              rw [own, if_neg ‹_›]
              rfl
      cases line with
      | label place =>
          cases taken
          exact ⟨otherTail, .step rfl, .inl ⟨rfl, rfl⟩⟩
      | directive order =>
          cases order with
          | loc line =>
              cases taken
              exact ⟨otherTail, .step rfl, .inl ⟨rfl, rfl⟩⟩
          | _ => cases taken
      | instr instr =>
          by_cases straight : instr.isStraight = true
          · rw [step_straight straight] at taken
            obtain ⟨next, ran, equal⟩ := Option.map_eq_some_iff.mp taken
            cases equal
            refine ⟨otherTail, .step ?_, .inl ⟨rfl, rfl⟩⟩
            rw [step_straight straight, ran]
            rfl
          cases instr with
          | jump target =>
              obtain ⟨goal, found, equal⟩ := Option.map_eq_some_iff.mp taken
              cases equal
              obtain ⟨otherGoal, otherFound⟩ := known target rfl ⟨rest, found⟩
              refine ⟨otherGoal, .step ?_, .inr ⟨target, rfl, found, otherFound⟩⟩
              change (other.after? target).map _ = _
              rw [otherFound]
              rfl
          | jumpEq target | jumpNe target => exact conditional rfl fun _ _ => rfl
          | call => cases taken
          | _ => exact absurd rfl straight

/-- A run in a text of two parts that do not jump into each other is in the first part, or
has left it once for the second. -/
theorem SparingRuns.cases_append {rest : Code}
    (forth : first.Separate second)
    (back : second.Separate first)
    (run : SparingRuns names callees base (first ++ second) ⟨first ++ second, start⟩
      ⟨rest, last⟩) :
    (∃ part, rest = part ++ second ∧ (∃ above, first = above ++ part) ∧
      SparingRuns names callees base first ⟨first, start⟩ ⟨part, last⟩) ∨
    ∃ middle, (∃ above, second = above ++ rest) ∧
      SparingRuns names callees base first ⟨first, start⟩ ⟨[], middle⟩ ∧
      SparingRuns names callees base second ⟨second, middle⟩ ⟨rest, last⟩ := by
  generalize reached : (⟨rest, last⟩ : Config) = config at run
  -- A line of the second part moves as it does in the second part alone.
  have in_second {tail rest above : Code} {line : Line} {before after : Machine}
      (moves : Moves names callees (first ++ second) ⟨line :: tail, before⟩ ⟨rest, after⟩)
      (divided : second = above ++ line :: tail) :
      (∃ above, second = above ++ rest) ∧
        Moves names callees second ⟨line :: tail, before⟩ ⟨rest, after⟩ := by
    have same {target : Label} (aims : line.target? = some target) :
        (first ++ second).after? target = second.after? target :=
      Code.after?_append_right (back line (by simp [divided]) target aims)
    obtain ⟨otherRest, own, ⟨rfl, rfl⟩ | ⟨target, aims, found, otherFound⟩⟩ :=
      moves.transfer tail fun target aims found => by rwa [same aims] at found
    · exact ⟨⟨above ++ [line], by simp [divided]⟩, own⟩
    · rw [same aims, otherFound] at found
      cases found
      obtain ⟨above, equal⟩ := Code.exists_of_after? otherFound
      exact ⟨⟨above ++ [.label target], by simp [equal]⟩, own⟩
  induction run generalizing rest last with
  | refl =>
      cases reached
      exact .inl ⟨first, rfl, ⟨[], rfl⟩, .refl⟩
  | @tail before _ earlier move hypothesis =>
      subst reached
      obtain ⟨moves, spares⟩ := move
      obtain ⟨code, machine⟩ := before
      rcases hypothesis rfl with
        ⟨part, rfl, ⟨above, divided⟩, inside⟩ | ⟨middle, ⟨above, divided⟩,
          through, inside⟩
      · cases part with
        | nil =>
            cases second with
            | nil => cases moves with | step taken => cases taken
            | cons line tail =>
                obtain ⟨below, own⟩ := in_second moves (List.nil_append _).symm
                exact .inr ⟨machine, below, inside, .single ⟨own, spares⟩⟩
        | cons line tail =>
            have member : line ∈ first := by simp [divided]
            have known {target : Label} (aims : line.target? = some target)
                (found : ∃ goal, (first ++ second).after? target = some goal) :
                ∃ goal, first.after? target = some goal := by
              obtain ⟨goal, found⟩ := found
              obtain ⟨upper, equal⟩ := Code.exists_of_after? found
              have defined : .label target ∈ first ++ second := by simp [equal]
              rcases List.mem_append.mp defined with own | other
              · exact Code.exists_after?_of_mem own
              · exact absurd other (forth line member target aims)
            obtain ⟨part, own, ⟨rfl, rfl⟩ | ⟨target, aims, found, otherFound⟩⟩ :=
              moves.transfer tail fun target => known
            · exact .inl ⟨part, rfl, ⟨above ++ [line], by simp [divided]⟩,
                inside.tail ⟨own, spares⟩⟩
            · rw [Code.after?_append_left otherFound] at found
              cases found
              obtain ⟨upper, equal⟩ := Code.exists_of_after? otherFound
              exact .inl ⟨part, rfl, ⟨upper ++ [.label target], by simp [equal]⟩,
                inside.tail ⟨own, spares⟩⟩
      · cases code with
        | nil => cases moves with | step taken => cases taken
        | cons line tail =>
            obtain ⟨below, own⟩ := in_second moves divided
            exact .inr ⟨middle, below, through, inside.tail ⟨own, spares⟩⟩

/-- A run into the second part has gone through the first. -/
theorem SparingRuns.split {rest above : Code}
    (forth : first.Separate second)
    (back : second.Separate first)
    (divided : second = above ++ rest)
    (run : SparingRuns names callees base (first ++ second) ⟨first ++ second, start⟩
      ⟨rest, last⟩) :
    ∃ middle, SparingRuns names callees base first ⟨first, start⟩ ⟨[], middle⟩ ∧
      SparingRuns names callees base second ⟨second, middle⟩ ⟨rest, last⟩ := by
  rcases run.cases_append forth back with ⟨part, equal, _, inside⟩ | ⟨middle,
    _, through, inside⟩
  · -- The run is at the end of the first part.
    have lengths := congrArg List.length equal
    simp only [divided, List.length_append] at lengths
    obtain rfl : part = [] := List.length_eq_zero_iff.mp (by omega)
    obtain rfl : rest = second := equal
    exact ⟨last, inside, .refl⟩
  · exact ⟨middle, through, inside⟩

end Parts

/-! ## Straight runs -/

section Straight

variable {names : Names} {callees : Callees} {base : Word} {text rest : Code}
  {start last : Machine} {list : List Instr}

/-- Text in which no line jumps or is jumped to. -/
def Code.Jointless (code : Code) : Prop :=
  ∀ line ∈ code, line.defined? = none ∧ line.target? = none

theorem Code.Jointless.separate {code other : Code} (jointless : code.Jointless) :
    code.Separate other ∧ other.Separate code := by
  constructor
  · intro line member target jumps
    rw [(jointless line member).2] at jumps
    cases jumps
  · intro _ _ target _ defined
    exact absurd (jointless _ defined).1 (Option.some_ne_none target)

theorem Code.jointless_of_straight (straight : ∀ instr ∈ list, instr.isStraight = true) :
    Code.Jointless (instrs list) := by
  intro line member
  obtain ⟨instr, listed, rfl⟩ := List.mem_map.mp member
  have own := straight instr listed
  refine ⟨rfl, ?_⟩
  cases instr with
  | jump | jumpEq | jumpNe => cases own
  | _ => rfl

/-- A run through straight instructions runs them one after the other. -/
theorem SparingRuns.runAll
    (straight : ∀ instr ∈ list, instr.isStraight = true)
    (run : SparingRuns names callees base text ⟨instrs list, start⟩ ⟨[], last⟩) :
    Instr.runAll names start list = some last := by
  induction list generalizing start with
  | nil =>
      rcases Relation.ReflTransGen.cases_head run with same | ⟨_, ⟨moves, _⟩, _⟩
      · cases same
        rfl
      · cases moves with | step taken => cases taken
  | cons instr list hypothesis =>
      have own := straight instr List.mem_cons_self
      rcases Relation.ReflTransGen.cases_head run with same | ⟨⟨code, machine⟩,
        ⟨moves, _⟩, others⟩
      · cases same
      · obtain ⟨line, tail, equal, ⟨rfl, passes⟩ | ⟨target, jumps, _⟩⟩ := moves.cases
        · cases equal
          rw [Line.passes_instr own] at passes
          rw [Instr.runAll, passes]
          exact hypothesis (fun other member => straight other
            (List.mem_cons_of_mem instr member)) others
        · cases equal
          cases instr with
          | jump | jumpEq | jumpNe => cases own
          | _ => cases jumps

end Straight

/-! ## Runs that can be computed -/

/-- Whether a line can be seen to leave alone what is on the stack below a base, if called
functions do not write to memory: it pushes, or it stores elsewhere, or nothing is
there. -/
def Line.isSparing (base : Word) (machine : Machine) : Line -> Bool
  | instr (.push _) => (base - machine.regs .rsp).toNat + 8 ≤ 2 ^ 64
  | instr (.store width) =>
      let low := (machine.regs .rsp).toNat
      let place := (machine.regs .rax).toNat
      low ≤ base.toNat &&
        (place + width.bytes ≤ low || base.toNat ≤ place && place + width.bytes ≤ 2 ^ 64)
  | instr (.storeByte _) | instr (.storeFrame _ _ _) => machine.regs .rsp = base
  | _ => true

/-- A number of moves that can be seen to leave alone what is on the stack below a
base. -/
def sparingMoves? (names : Names) (calls : String -> Machine -> Machine) (base : Word)
    (text : Code) : Nat -> Config -> Option Config
  | 0, config => some config
  | count + 1, config =>
      if config.rest.head?.all (·.isSparing base config.machine) then
        (move? names calls text config).bind (sparingMoves? names calls base text count)
      else none

section Computed

variable {names : Names} {callees : Callees} {base : Word} {before after : Machine}

theorem Spares.of_memory (same : after.memory = before.memory) :
    Spares base before after :=
  fun place _ => by rw [same]

/-- Nothing is on the stack at its base. -/
theorem Spares.of_empty (empty : before.regs .rsp = base) : Spares base before after := by
  intro place covered
  rw [← empty, BitVec.sub_self] at covered
  exact absurd covered (Nat.not_lt_zero _)

theorem Spares.of_isSparing {line : Line}
    (kept : ∀ name before after, callees name before after ->
      after.memory = before.memory)
    (passes : line.Passes names callees before after)
    (sparing : line.isSparing base before = true) : Spares base before after := by
  cases line with
  | label place => exact .of_memory (by rw [show after = before from passes])
  | directive order =>
      cases order with
      | loc => exact .of_memory (by rw [show after = before from passes])
      | _ => exact absurd passes id
  | instr step =>
      cases step with
      | push reg =>
          have room : (base - before.regs .rsp).toNat + 8 ≤ 2 ^ 64 := by
            simpa [Line.isSparing] using sparing
          cases passes
          intro place covered
          apply Memory.write_of_not_covers
          unfold Covers at covered ⊢
          bv_omega
      | store width =>
          simp only [Line.isSparing, Bool.and_eq_true, Bool.or_eq_true, decide_eq_true_eq]
            at sparing
          cases passes
          intro place covered
          apply Memory.write_of_not_covers
          have bytes : width.bytes ≤ 8 := by cases width <;> decide
          rw [covers_iff (by bv_omega)] at covered
          rw [covers_iff (by omega)]
          bv_omega
      | storeByte | storeFrame =>
          exact .of_empty (by simpa [Line.isSparing] using sparing)
      | call name => exact .of_memory (kept name before after passes)
      | divide =>
          change Machine.divide before = some after at passes
          simp only [Machine.divide, Option.ite_none_left_eq_some] at passes
          obtain ⟨_, passes⟩ := passes
          cases passes
          exact .of_memory rfl
      | setCond =>
          obtain ⟨_, _, rfl⟩ := Option.map_eq_some_iff.mp passes
          exact .of_memory rfl
      | jump => exact absurd passes id
      | jumpEq | jumpNe => exact .of_memory (by rw [show after = before from passes])
      | ret => cases passes
      | _ =>
          cases passes
          exact .of_memory rfl

/-- A sparing run is known from where it ends and what is read off its last machine. -/
theorem SparingRuns.exists_of_sparingMoves?
    {calls : String -> Machine -> Machine} {text : Code}
    (kept : ∀ name machine, (calls name machine).memory = machine.memory)
    {α : Type} {count : Nat} {start : Config} {rest : Code}
    {read : Machine -> α} {value : α}
    (moved : (sparingMoves? names calls base text count start).map
      (fun config => (config.rest, read config.machine)) = some (rest, value)) :
    ∃ last, SparingRuns names (fun name machine next => next = calls name machine)
      base text start ⟨rest, last⟩ ∧ read last = value := by
  induction count generalizing start with
  | zero =>
      cases moved
      exact ⟨start.machine, .refl, rfl⟩
  | succ count hypothesis =>
      unfold sparingMoves? at moved
      split at moved
      · rename_i sparing
        rw [Option.map_bind] at moved
        obtain ⟨middle, first, others⟩ := Option.bind_eq_some_iff.mp moved
        have moves := Moves.of_move? first
        obtain ⟨code, machine⟩ := start
        obtain ⟨line, tail, equal, next⟩ := moves.cases
        obtain rfl : code = line :: tail := equal
        have spares : Spares base machine middle.machine := by
          rcases next with ⟨_, passes⟩ | ⟨_, _, _, same⟩
          · refine .of_isSparing (fun name before after returned => ?_) passes
              (by simpa using sparing)
            rw [returned, kept]
          · exact .of_memory (by rw [same])
        obtain ⟨last, run, same⟩ := hypothesis others
        exact ⟨last, .head ⟨moves, spares⟩ run, same⟩
      · cases moved

end Computed

end Asm
end MiniC
