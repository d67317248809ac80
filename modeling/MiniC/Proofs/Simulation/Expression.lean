import MiniC.Proofs.Simulation.Layout

/-!
# Running the code of expressions

The code of an expression, run on the machine, pushes the value of the expression and
leaves in every variable what the evaluation leaves there.

The proof is an induction over the evaluation, with one case for each rule.  The lines
between the code of the operands work on the top of the stack, and each kind of such lines
has a lemma of its own.
-/

namespace MiniC
namespace Semantics

open Asm Emit

/-- The machine gets from a configuration to a place in the text, in a state with a
property. -/
def Leads (names : Names) (text : Code) (config : Config) (goal : Code)
    (post : Machine -> Prop) : Prop :=
  ∃ next, Reaches names text config ⟨goal, next⟩ ∧ post next

namespace Leads

variable {names : Names} {text : Code} {goal : Code} {post : Machine -> Prop}

theorem here {machine : Machine} (holds : post machine) :
    Leads names text ⟨goal, machine⟩ goal post :=
  ⟨machine, .refl _, holds⟩

/-- A way and what it leads to. -/
theorem after
    {config middle : Config}
    (way : Reaches names text config middle)
    (leads : Leads names text middle goal post) :
    Leads names text config goal post := by
  obtain ⟨last, further, result⟩ := leads
  exact ⟨last, way.trans further, result⟩

/-- One way after the other. -/
theorem andThen
    {config : Config}
    {middle : Code}
    {between : Machine -> Prop}
    (first : Leads names text config middle between)
    (second : ∀ next, between next -> Leads names text ⟨middle, next⟩ goal post) :
    Leads names text config goal post := by
  obtain ⟨reached, way, holds⟩ := first
  exact .after way (second reached holds)

theorem weaken
    {config : Config}
    {other : Machine -> Prop}
    (leads : Leads names text config goal post)
    (implies : ∀ next, post next -> other next) :
    Leads names text config goal other := by
  obtain ⟨next, way, holds⟩ := leads
  exact ⟨next, way, implies next holds⟩

end Leads

section Lines

variable {layout : Layout} {text rest : Code} {store : Store} {before machine : Machine}
variable {value result : Int}

/-- Instructions that compute a number, and a push of the number. -/
theorem leads_push
    {list : List Instr}
    (sound : layout.Sound)
    (ready : layout.Ready store machine 1)
    (computes : Computes layout.names list machine value) :
    Leads layout.names text ⟨instrs list ++ (instrs [.push .rax] ++ rest), machine⟩ rest
      (layout.Pushed machine · store (.ofInt 64 value)) := by
  obtain ⟨next, run, holds, quiet⟩ := computes
  have steady : layout.Steady machine next store :=
    (Layout.Steady.refl ready.agrees).quiet quiet
  refine ⟨next.push (next.regs .rax), ?_, ?_⟩
  · exact (Reaches.instrs run).trans (Reaches.instrs rfl)
  · rw [holds]
    exact steady.pushed ((ready.steady steady).push sound _)

/-- Instructions that work on the top of the stack. -/
theorem leads_top
    {list : List Instr}
    {earlier : Store}
    (sound : layout.Sound)
    (ready : layout.Ready earlier before 1)
    (pushed : layout.Pushed before machine store (.ofInt 64 value))
    (computes : Computes layout.names list (machine.pop .rax) result) :
    Leads layout.names text ⟨topLines list ++ rest, machine⟩ rest
      (layout.Pushed before · store (.ofInt 64 result)) := by
  have steady : layout.Steady before (machine.pop .rax) store :=
    pushed.pop (by decide) (by decide)
  simp only [topLines, List.append_assoc]
  refine .after (.instrs rfl) ?_
  apply (leads_push sound (ready.steady steady) computes).weaken
  exact fun next holds => steady.pushed holds

/-- The address of a variable. -/
theorem leads_address
    {finder : Instr}
    {id : SymbolId}
    (sound : layout.Sound)
    (ready : layout.Ready store machine 1)
    (finds : Addresses layout.program id finder) :
    Leads layout.names text
      ⟨instrs [finder] ++ (instrs [.push .rax] ++ rest), machine⟩ rest
      (layout.Pushed machine · store (layout.address id)) := by
  have computes : Computes layout.names [finder] machine (layout.address id).toInt := by
    refine .cons (finds.run layout.names machine) ⟨rfl, rfl, rfl⟩ (.nil ?_)
    rw [Machine.set_regs, if_pos rfl, ready.base, BitVec.ofInt_toInt, Layout.address]
  rw [← BitVec.ofInt_toInt (x := layout.address id)]
  exact leads_push sound ready computes

/-- The value of a variable, from its address on top of the stack. -/
theorem leads_load
    {earlier : Store}
    {target : Variable}
    (sound : layout.Sound)
    (ready : layout.Ready earlier before 1)
    (tracked : layout.tracked target)
    (pushed : layout.Pushed before machine store (layout.address target.id)) :
    Leads layout.names text ⟨loadLines target.ty.entry ++ rest, machine⟩ rest
      (layout.Pushed before · store (.ofInt 64 (store target.id))) := by
  have lines : loadLines target.ty.entry = topLines [.load target.ty.width] := by
    unfold loadLines
    rw [IntTy.ofSize_entry]
    cases target.ty <;> rfl
  have computes : Computes layout.names [.load target.ty.width] (machine.pop .rax)
      (store target.id) := by
    apply computes_load
    rw [Machine.pop_regs, if_pos rfl, Machine.pop_memory, pushed.word,
      pushed.agrees target tracked]
  rw [← BitVec.ofInt_toInt (x := layout.address target.id)] at pushed
  rw [lines]
  exact leads_top sound ready pushed computes

/-- The conversion of the value on top of the stack. -/
theorem leads_convert
    {earlier : Store}
    {source : IntTy}
    (target : IntTy)
    (sound : layout.Sound)
    (ready : layout.Ready earlier before 1)
    (fits : source.Fits value)
    (pushed : layout.Pushed before machine store (.ofInt 64 value)) :
    Leads layout.names text ⟨convertLines source.entry target.entry ++ rest, machine⟩ rest
      (layout.Pushed before · store (.ofInt 64 (target.convert value))) := by
  have holds : (machine.pop .rax).regs .rax = .ofInt 64 value := pushed.word
  by_cases isBool : target = .bool
  · subst isBool
    exact leads_top sound ready pushed (computes_zeroTest .ne holds fits)
  · have converted : target.convert value = target.wrap value := by
      cases target with
      | bool => exact absurd rfl isBool
      | _ => rfl
    have lines : convertLines source.entry target.entry =
        if target.width.rank < source.width.rank then topLines
          (extend target.width) else [] := by
      unfold convertLines
      rw [IntTy.entry_width, IntTy.entry_width]
      cases target with
      | bool => exact absurd rfl isBool
      | _ => rfl
    rw [lines, converted]
    split
    · exact leads_top sound ready pushed (computes_extend target holds)
    · have same : target.wrap value = value := fits.mono (by omega)
      rw [same]
      exact .here pushed

/-- A test of the value on top of the stack, and a jump that depends on it. -/
theorem leads_test
    {ty : IntTy}
    {jump : Label -> Instr}
    {cond : Cond}
    {target : Label}
    {goal : Code}
    (branches : Branches jump cond)
    (fits : ty.Fits value)
    (pushed : layout.Pushed before machine store (.ofInt 64 value))
    (continues : if cond.test value 0 then text.after? target =
      some goal else goal = rest) :
    Leads layout.names text ⟨testLines ++ (instrs [jump target] ++ rest), machine⟩ goal
      (layout.Steady before · store) := by
  have steady : layout.Steady before (machine.pop .rax) store :=
    pushed.pop (by decide) (by decide)
  have flags : ((machine.pop .rax).compare 0).flags =
      some (.compare (.ofInt 64 value) 0) := by
    rw [Machine.compare_flags, Machine.pop_regs, if_pos rfl, pushed.word]
  have decided : cond.holds (.compare (.ofInt 64 value) 0) = cond.test value 0 := by
    rw [Cond.holds_compare, fits.toInt_ofInt]
    rfl
  rw [← decided] at continues
  refine ⟨(machine.pop .rax).compare 0, ?_, steady.quiet ⟨rfl, rfl, rfl⟩⟩
  simp only [testLines, List.append_assoc]
  exact ((Reaches.instrs rfl).trans (Reaches.instrs rfl)).trans
    (Reaches.branch branches flags continues)

theorem leads_test_taken
    {ty : IntTy}
    {jump : Label -> Instr}
    {cond : Cond}
    {target : Label}
    {goal : Code}
    (branches : Branches jump cond)
    (fits : ty.Fits value)
    (pushed : layout.Pushed before machine store (.ofInt 64 value))
    (holds : cond.test value 0 = true)
    (landing : text.after? target = some goal) :
    Leads layout.names text ⟨testLines ++ (instrs [jump target] ++ rest), machine⟩ goal
      (layout.Steady before · store) := by
  apply leads_test branches fits pushed
  rw [if_pos holds]
  exact landing

theorem leads_test_passed
    {ty : IntTy}
    {jump : Label -> Instr}
    {cond : Cond}
    {target : Label}
    (branches : Branches jump cond)
    (fits : ty.Fits value)
    (pushed : layout.Pushed before machine store (.ofInt 64 value))
    (fails : cond.test value 0 = false) :
    Leads layout.names text ⟨testLines ++ (instrs [jump target] ++ rest), machine⟩ rest
      (layout.Steady before · store) := by
  apply leads_test branches fits pushed
  rw [fails]
  rfl

/-- A number in `rax` stored at the address of a variable. -/
theorem steady_assign
    {target : Variable}
    (sound : layout.Sound)
    (tracked : layout.tracked target)
    (fits : target.ty.Fits value)
    (steady : layout.Steady before machine store) :
    layout.Steady before
      { machine with
        memory := machine.memory.write (layout.address target.id) target.ty.width.bytes
          (.ofInt 64 value) }
      (store.set target.id value) where
  rsp := steady.rsp
  rbp := steady.rbp
  agrees := by
    intro other otherTracked
    have small : other.ty.width.bytes ≤ 8 := by cases other.ty <;> decide
    unfold Store.set
    split
    · rename_i same
      obtain rfl := sound.single other target otherTracked tracked same
      rw [Memory.signed_write small, fits.toInt_ofInt]
      exact fits
    · rename_i different
      rw [← steady.agrees other otherTracked]
      apply Memory.signed_write_of_apart (by omega)
      exact sound.apart other target otherTracked tracked different
  kept := by
    intro place above free
    rw [← steady.kept place above free]
    exact Memory.write_of_not_covers (free target tracked)

/-- An assignment of the number in `rdi` to the variable whose address is in `rax`. -/
theorem leads_storeRegister
    {earlier : Store}
    {target : Variable}
    (sound : layout.Sound)
    (ready : layout.Ready earlier before 1)
    (tracked : layout.tracked target)
    (fits : target.ty.Fits value)
    (steady : layout.Steady before machine store)
    (address : machine.regs .rax = layout.address target.id)
    (holds : machine.regs .rdi = .ofInt 64 value) :
    Leads layout.names text
      ⟨instrs [.store target.ty.width] ++ (instrs [.move .rax .rdi] ++
        (instrs [.push .rax] ++ rest)), machine⟩ rest
      (layout.Pushed before · (store.set target.id value) (.ofInt 64 value)) := by
  have assigned := steady_assign sound tracked fits steady
  rw [← address, ← holds] at assigned
  refine .after (.instrs rfl) ?_
  have moved : Computes layout.names [.move .rax .rdi]
      { machine with
        memory := machine.memory.write (machine.regs .rax) target.ty.width.bytes
          (machine.regs .rdi) } value :=
    .cons rfl ⟨rfl, rfl, rfl⟩ (.nil holds)
  apply (leads_push sound (ready.steady assigned) moved).weaken
  exact fun next pushed => assigned.pushed pushed

/-- An assignment of the value on top of the stack to the variable whose address is below
it. -/
theorem leads_store
    {started : Machine}
    {earlier middle : Store}
    {target : Variable}
    (sound : layout.Sound)
    (ready : layout.Ready earlier started 1)
    (tracked : layout.tracked target)
    (fits : target.ty.Fits value)
    (first : layout.Pushed started before middle (layout.address target.id))
    (second : layout.Pushed before machine store (.ofInt 64 value)) :
    Leads layout.names text ⟨storeLines target.ty.entry ++ rest, machine⟩ rest
      (layout.Pushed started · (store.set target.id value) (.ofInt 64 value)) := by
  have lines : storeLines target.ty.entry ++ rest =
      instrs [.pop .rdi] ++ (instrs [.pop .rax] ++ (instrs [.store target.ty.width] ++
        (instrs [.move .rax .rdi] ++ (instrs [.push .rax] ++ rest)))) := by
    unfold storeLines storeInstrs
    rw [IntTy.ofSize_entry]
    cases target.ty <;> rfl
  have under :
      layout.Pushed started (machine.pop .rdi) store (layout.address target.id) :=
    first.under sound ready second (by decide) (by decide)
  have steady : layout.Steady started ((machine.pop .rdi).pop .rax) store :=
    under.pop (by decide) (by decide)
  have address : ((machine.pop .rdi).pop .rax).regs .rax = layout.address target.id :=
    under.word
  have holds : ((machine.pop .rdi).pop .rax).regs .rdi = .ofInt 64 value := second.word
  rw [lines]
  refine .after (.instrs rfl) (.after (.instrs rfl) ?_)
  exact leads_storeRegister sound ready tracked fits steady address holds

end Lines

/-! ## Conjunction and disjunction -/

section ShortCircuit

/-- The lines behind the operands of a conjunction or disjunction. -/
def closingLines (role : Role) (decided undecided : Int) (number : Nat) : Code :=
  instrs [.set .rax undecided] ++ instrs [.jump (.numbered .stop number)]
    ++ define role number ++ instrs [.set .rax decided]
    ++ define .stop number ++ instrs [.push .rax]

theorem shortCircuitLines_eq (jump : Label -> Instr) (role : Role)
    (decided undecided : Int) (number : Nat) (left right : Code) :
    shortCircuitLines jump role decided undecided number left right =
      left ++ (testLines ++ (instrs [jump (.numbered role number)] ++
        (right ++ (testLines ++ (instrs [jump (.numbered role number)] ++
          closingLines role decided undecided number))))) := by
  simp [shortCircuitLines, closingLines, instrs]

variable {layout : Layout} {text rest : Code} {store middle after : Store}
    {machine : Machine}
variable {left right decided undecided : Int} {leftTy rightTy : IntTy}
    {number : Nat} {role : Role}

/-- The lines from the label of the decided result on. -/
theorem leads_decided
    (sound : layout.Sound)
    (ready : layout.Ready store machine 1) :
    Leads layout.names text
      ⟨instrs [.set .rax decided] ++
        (define .stop number ++ (instrs [.push .rax] ++ rest)),
        machine⟩ rest (layout.Pushed machine · store (.ofInt 64 decided)) := by
  have set : layout.Steady machine (machine.set .rax (.ofInt 64 decided)) store :=
    (Layout.Steady.refl ready.agrees).quiet ⟨rfl, rfl, rfl⟩
  have moved : Computes layout.names [] (machine.set .rax (.ofInt 64 decided)) decided :=
    .nil rfl
  refine .after (.instrs rfl) (.after (.label _) ?_)
  apply (leads_push sound (ready.steady set) moved).weaken
  exact fun next pushed => set.pushed pushed

/-- The lines behind both tests, if neither has decided the result. -/
theorem leads_undecided
    (sound : layout.Sound)
    (ready : layout.Ready store machine 1)
    (resolves : Resolves text (closingLines role decided undecided number) rest) :
    Leads layout.names text ⟨closingLines role decided undecided number ++ rest, machine⟩
      rest (layout.Pushed machine · store (.ofInt 64 undecided)) := by
  have set : layout.Steady machine (machine.set .rax (.ofInt 64 undecided)) store :=
    (Layout.Steady.refl ready.agrees).quiet ⟨rfl, rfl, rfl⟩
  have moved :
      Computes layout.names [] (machine.set .rax (.ofInt 64 undecided)) undecided :=
    .nil rfl
  have stop : text.after? (.numbered .stop number) = some (instrs [.push .rax] ++ rest) :=
    resolves _ _ _ _ rfl
  simp only [closingLines, List.append_assoc]
  refine .after (.instrs rfl) (.after (.jump stop) ?_)
  apply (leads_push sound (ready.steady set) moved).weaken
  exact fun next pushed => set.pushed pushed

/-- The label of the decided result. -/
theorem resolves_landing
    (resolves : Resolves text (closingLines role decided undecided number) rest) :
    text.after? (.numbered role number) = some
      (instrs [.set .rax decided] ++
        (define .stop number ++ (instrs [.push .rax] ++ rest))) := by
  have found := resolves (instrs [.set .rax undecided] ++
    instrs [.jump (.numbered .stop number)]) role number
    (instrs [.set .rax decided] ++ define .stop number ++ instrs [.push .rax])
    (by simp only [closingLines, List.append_assoc])
  simpa only [List.append_assoc] using found

/-- A conjunction or disjunction that the left operand decides. -/
theorem leads_shortCircuit_decided
    {jump : Label -> Instr}
    {cond : Cond}
    {leftCode rightCode : Code}
    (sound : layout.Sound)
    (branches : Branches jump cond)
    (ready : layout.Ready store machine 1)
    (resolves : Resolves text
      (shortCircuitLines jump role decided undecided number leftCode rightCode) rest)
    (first : ∀ rest, Resolves text leftCode rest ->
      Leads layout.names text ⟨leftCode ++ rest, machine⟩ rest
        (layout.Pushed machine · after (.ofInt 64 left)))
    (fits : leftTy.Fits left)
    (decides : cond.test left 0 = true) :
    Leads layout.names text
      ⟨shortCircuitLines jump role decided undecided number leftCode rightCode ++
        rest, machine⟩
      rest (layout.Pushed machine · after (.ofInt 64 decided)) := by
  rw [shortCircuitLines_eq] at resolves ⊢
  have landing := resolves_landing resolves.right.right.right.right.right.right
  have leftResolves := resolves.left
  simp only [List.append_assoc] at leftResolves ⊢
  refine (first _ leftResolves).andThen fun middle pushed => ?_
  refine (leads_test_taken branches fits pushed decides landing).andThen
    fun last steady => ?_
  apply (leads_decided sound (ready.steady steady)).weaken
  exact fun next reached => steady.pushed reached

/-- A conjunction or disjunction that the left operand leaves open. -/
theorem leads_shortCircuit_open
    {jump : Label -> Instr}
    {cond : Cond}
    {leftCode rightCode : Code}
    (sound : layout.Sound)
    (branches : Branches jump cond)
    (ready : layout.Ready store machine 1)
    (resolves : Resolves text
      (shortCircuitLines jump role decided undecided number leftCode rightCode) rest)
    (first : ∀ rest, Resolves text leftCode rest ->
      Leads layout.names text ⟨leftCode ++ rest, machine⟩ rest
        (layout.Pushed machine · middle (.ofInt 64 left)))
    (leftFits : leftTy.Fits left)
    (leavesOpen : cond.test left 0 = false)
    (second : ∀ next rest, layout.Steady machine next middle ->
      Resolves text rightCode rest ->
      Leads layout.names text ⟨rightCode ++ rest, next⟩ rest
        (layout.Pushed next · after (.ofInt 64 right)))
    (rightFits : rightTy.Fits right) :
    Leads layout.names text
      ⟨shortCircuitLines jump role decided undecided number leftCode rightCode ++
        rest, machine⟩
      rest (layout.Pushed machine · after
        (.ofInt 64 (if cond.test right 0 then decided else undecided))) := by
  rw [shortCircuitLines_eq] at resolves ⊢
  have closing := resolves.right.right.right.right.right.right
  have leftResolves := resolves.left
  have rightResolves := resolves.right.right.right.left
  simp only [List.append_assoc] at leftResolves rightResolves ⊢
  refine (first _ leftResolves).andThen fun next pushed => ?_
  refine (leads_test_passed branches leftFits pushed leavesOpen).andThen
    fun tested steady => ?_
  refine (second tested _ steady rightResolves).andThen fun valued again => ?_
  by_cases decides : cond.test right 0 = true
  · rw [if_pos decides]
    refine (leads_test_taken branches rightFits again decides
      (resolves_landing closing)).andThen ?_
    intro last settled
    have whole := steady.trans settled
    apply (leads_decided sound (ready.steady whole)).weaken
    exact fun next reached => whole.pushed reached
  · rw [if_neg decides]
    refine (leads_test_passed branches rightFits again (by simpa using decides)).andThen
      ?_
    intro last settled
    have whole := steady.trans settled
    apply (leads_undecided sound (ready.steady whole) closing).weaken
    exact fun next reached => whole.pushed reached

end ShortCircuit

/-! ## All expressions -/

/-- The code of an expression pushes the value of the expression. -/
theorem Compiled.leads
    {layout : Layout}
    {text : Code}
    (sound : layout.Sound)
    {expr : Expr}
    {store after : Store}
    {value : Int}
    (evaluates : Evaluates expr store value after)
    {code rest : Code}
    {machine : Machine}
    (compiled : Compiled layout.program expr code)
    (inside : ∀ target ∈ expr.vars, layout.tracked target)
    (ready : layout.Ready store machine expr.words)
    (resolves : Resolves text code rest) :
    Leads layout.names text ⟨code ++ rest, machine⟩ rest
      (layout.Pushed machine · after (.ofInt 64 value)) := by
  induction evaluates generalizing code rest machine with
  | @literal value store =>
      cases compiled with
      | literal =>
          rw [ofInt_wrap_literal, List.append_assoc]
          exact leads_push sound ready (computes_set value)
  | @var target store =>
      cases compiled with
      | var finds =>
          have tracked := inside target List.mem_cons_self
          simp only [List.append_assoc]
          refine (leads_address sound ready finds).andThen fun next pushed => ?_
          exact leads_load sound ready tracked pushed
  | @cast ty operand store given after inner hypothesis =>
      cases compiled with
      | cast compiled =>
          have fits := (inner.fits sound.single inside ready.agrees.fits).1
          have innerResolves := resolves.left
          rw [List.append_assoc]
          refine (hypothesis compiled inside ready innerResolves).andThen
            fun next pushed => ?_
          exact leads_convert ty sound (ready.mono operand.words_pos) fits pushed
  | @unary op operand store given after inner hypothesis =>
      cases compiled with
      | unary compiled =>
          have fits := (inner.fits sound.single inside ready.agrees.fits).1
          rw [List.append_assoc]
          refine (hypothesis compiled inside ready resolves.left).andThen
            fun next pushed => ?_
          apply leads_top sound (ready.mono operand.words_pos) pushed
          exact computes_unaryOperation op (Expr.unary_ty_ne_bool operand)
            pushed.word fits
  | @andFalse lhs rhs store after first hypothesis =>
      obtain ⟨left, _⟩ := List.forall_mem_append.mp inside
      have leftReady := ready.mono (Expr.words_lhs .logAnd lhs rhs)
      cases compiled with
      | binary notAnd => exact absurd rfl notAnd
      | logAnd leftCompiled _ =>
          exact leads_shortCircuit_decided sound .eq
            (ready.mono (Expr.words_pos _)) resolves
            (fun rest => hypothesis leftCompiled left leftReady)
            (first.fits sound.single left ready.agrees.fits).1 rfl
  | @andTrue lhs rhs store leftValue middle rightValue after first nonzero
    second leftLeads
      rightLeads =>
      obtain ⟨left, right⟩ := List.forall_mem_append.mp inside
      have leftReady := ready.mono (Expr.words_lhs .logAnd lhs rhs)
      have rightReady := ready.mono (Expr.words_rhs .logAnd lhs rhs)
      have fits := first.fits sound.single left ready.agrees.fits
      have same :
          truth (rightValue ≠ 0) = if Cond.eq.test rightValue 0 then 0 else 1 := by
        by_cases zero : rightValue = 0 <;> simp [truth, Cond.test, zero]
      cases compiled with
      | binary notAnd => exact absurd rfl notAnd
      | logAnd leftCompiled rightCompiled =>
          rw [same]
          exact leads_shortCircuit_open sound .eq (ready.mono (Expr.words_pos _)) resolves
            (fun rest => leftLeads leftCompiled left leftReady) fits.1
            (by simpa [Cond.test] using nonzero)
            (fun next rest steady => rightLeads rightCompiled right
              (rightReady.steady steady))
            (second.fits sound.single right fits.2).1
  | @orTrue lhs rhs store leftValue after first nonzero hypothesis =>
      obtain ⟨left, _⟩ := List.forall_mem_append.mp inside
      have leftReady := ready.mono (Expr.words_lhs .logOr lhs rhs)
      cases compiled with
      | binary _ notOr => exact absurd rfl notOr
      | logOr leftCompiled _ =>
          exact leads_shortCircuit_decided sound .ne
            (ready.mono (Expr.words_pos _)) resolves
            (fun rest => hypothesis leftCompiled left leftReady)
            (first.fits sound.single left ready.agrees.fits).1
            (by simpa [Cond.test] using nonzero)
  | @orFalse lhs rhs store middle rightValue after first second leftLeads rightLeads =>
      obtain ⟨left, right⟩ := List.forall_mem_append.mp inside
      have leftReady := ready.mono (Expr.words_lhs .logOr lhs rhs)
      have rightReady := ready.mono (Expr.words_rhs .logOr lhs rhs)
      have fits := first.fits sound.single left ready.agrees.fits
      have same :
          truth (rightValue ≠ 0) = if Cond.ne.test rightValue 0 then 1 else 0 := by
        by_cases zero : rightValue = 0 <;> simp [truth, Cond.test, zero]
      cases compiled with
      | binary _ notOr => exact absurd rfl notOr
      | logOr leftCompiled rightCompiled =>
          rw [same]
          exact leads_shortCircuit_open sound .ne (ready.mono (Expr.words_pos _)) resolves
            (fun rest => leftLeads leftCompiled left leftReady) fits.1 rfl
            (fun next rest steady => rightLeads rightCompiled right
              (rightReady.steady steady))
            (second.fits sound.single right fits.2).1
  | @binary op lhs rhs store leftValue middle rightValue after value notAnd
    notOr first second
      result leftLeads rightLeads =>
      obtain ⟨left, right⟩ := List.forall_mem_append.mp inside
      have leftReady := ready.mono (Expr.words_lhs op lhs rhs)
      have rightReady := ready.mono (Expr.one_add_words_rhs lhs rhs notAnd notOr)
      have oneReady := ready.mono (Expr.words_pos _)
      have fits := first.fits sound.single left ready.agrees.fits
      have rightFits := (second.fits sound.single right fits.2).1
      cases compiled with
      | logAnd => exact absurd rfl notAnd
      | logOr => exact absurd rfl notOr
      | binary _ _ leftCompiled rightCompiled =>
          have leftResolves := resolves.left.left.left
          have rightResolves := resolves.left.left.right
          simp only [List.append_assoc] at leftResolves rightResolves ⊢
          refine (leftLeads leftCompiled left leftReady leftResolves).andThen
            fun next pushed => ?_
          refine (rightLeads rightCompiled right (rightReady.pushed pushed)
            rightResolves).andThen fun last again => ?_
          have under :
              layout.Pushed machine (last.pop .rdi) after (.ofInt 64 leftValue) :=
            pushed.under sound oneReady again (by decide) (by decide)
          refine .after (.instrs rfl) ?_
          apply leads_top sound oneReady under
          exact computes_operation notAnd notOr (fun _ => Expr.binary_ty_ne_bool lhs rhs)
            under.word again.word fits.1 rightFits result
  | @comma lhs rhs store leftValue middle rightValue after first second
    leftLeads rightLeads =>
      obtain ⟨left, right⟩ := List.forall_mem_append.mp inside
      have leftReady := ready.mono (Nat.le_max_left lhs.words rhs.words)
      have rightReady := ready.mono (Nat.le_max_right lhs.words rhs.words)
      cases compiled with
      | comma leftCompiled rightCompiled =>
          have leftResolves := resolves.left.left
          have rightResolves := resolves.right
          simp only [List.append_assoc] at leftResolves ⊢
          refine (leftLeads leftCompiled left leftReady leftResolves).andThen
            fun next pushed => ?_
          have steady : layout.Steady machine (next.pop .rax) middle :=
            pushed.pop (by decide) (by decide)
          refine .after (.instrs rfl) ?_
          apply (rightLeads rightCompiled right (rightReady.steady steady)
            rightResolves).weaken
          exact fun last again => steady.pushed again
  | @assign target operand store given after inner hypothesis =>
      have tracked := inside target List.mem_cons_self
      have others : ∀ other ∈ operand.vars, layout.tracked other :=
        fun other member => inside other (List.mem_cons_of_mem _ member)
      have oneReady := ready.mono (Expr.words_pos _)
      have fits := (inner.fits sound.single others ready.agrees.fits).1
      cases compiled with
      | assign finds compiled =>
          have innerResolves := resolves.left.right.left
          simp only [List.append_assoc] at innerResolves ⊢
          refine (leads_address sound oneReady finds).andThen fun next pushed => ?_
          refine (hypothesis compiled others (ready.pushed pushed) innerResolves).andThen
            ?_
          intro valued again
          refine (leads_convert target.ty sound
            ((ready.pushed pushed).mono operand.words_pos) fits again).andThen ?_
          intro last converted
          exact leads_store sound oneReady tracked (IntTy.fits_convert _ _)
            pushed converted

end Semantics
end MiniC
