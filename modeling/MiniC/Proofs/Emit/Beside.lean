import MiniC.Proofs.Emit.Failure
import MiniC.Proofs.Emit.Text
import MiniC.Proofs.Grammar.Additions
import MiniC.Proofs.Grammar.Arena
import MiniC.Proofs.Grammar.Moves
import MiniC.Proofs.Program.Places

/-!
# Code of a program beside another

The code of a function is read off the nodes below its body, their types, and the symbols
that they name.  A program that holds the same rows at the same indices, with nodes placed
elsewhere and with more behind them, makes the same code of them.  If nothing stands
behind them, it also fails in the same way, at the place that corresponds.
-/

namespace MiniC

/-- The tables of one program are at the head of the tables of another that places its
nodes elsewhere.  If `whole`, the other has nothing else. -/
structure Program.Shows (whole : Prop) (place : Nat -> Nat)
    (program beside : Program) : Prop where
  types : Heads program.types.entries beside.types.entries
  nodes : ∀ id node, program.node? id = some node ->
    beside.node? id = some (node.relocate place)
  symbols : Heads program.symbols beside.symbols
  same : whole -> beside = program.relocate place

namespace Program.Shows

/-- A program is shown by the one with its nodes at other offsets. -/
theorem relocate (program : Program) (place : Nat -> Nat) :
    program.Shows True place (program.relocate place) where
  types := .refl _
  nodes := by
    intro id node found
    rw [node?_relocate, found]
    rfl
  symbols := .refl _
  same := fun _ => rfl

/-- A program is shown by every program that goes on from it. -/
theorem of_begins {program more : Program} (begins : program.Begins more) :
    program.Shows False id more :=
  ⟨begins.types, fun id node found => begins.nodes id.index node found,
    begins.symbols, False.elim⟩

end Program.Shows

namespace Emit

open Asm

variable {α β : Type} {whole : Prop} {place : Nat -> Nat}

/-- What one reading of a program gives another gives too, and if `whole` the other fails
as the one fails. -/
structure Repeats (whole : Prop) (place : Nat -> Nat) (result beside : Except Error α) :
    Prop where
  ok : ∀ value, result = .ok value -> beside = .ok value
  error : whole -> ∀ error, result = .error error ->
    beside = .error (error.relocate place)

namespace Repeats

/-- A result that does not depend on the program. -/
theorem of_ok (value : α) : Repeats whole place (.ok value) (.ok value) := by
  refine ⟨fun _ given => given, fun _ error failed => ?_⟩
  cases failed

/-- A reading that does not depend on places. -/
theorem refl {result : Except Error α} (unlocated : Program.Unlocated place result) :
    Repeats whole place result result :=
  ⟨fun _ given => given,
    fun _ error failed => by rw [unlocated error failed]; exact failed⟩

/-- An inconsistency has no place and is found again. -/
theorem internal (inconsistency : Inconsistency) :
    Repeats (α := α) whole place (.error (.internal inconsistency))
      (.error (.internal inconsistency)) :=
  .refl (by rintro error ⟨⟩; rfl)

/-- Of the whole program beside, a reading gives what it gives, with its error placed
elsewhere. -/
theorem eq_mapError {result beside : Except Error α}
    (repeats : Repeats True place result beside) :
    beside = result.mapError (Error.relocate place) := by
  cases known : result with
  | ok value => exact repeats.ok value known
  | error error => exact repeats.error trivial error known

/-- What is found in one program is found in the other. -/
theorem of_found
    {result beside : Except Error α}
    (found : ∀ value, result = .ok value -> beside = .ok value)
    (unlocated : Program.Unlocated place result)
    (same : whole -> beside = result) :
    Repeats whole place result beside :=
  ⟨found, fun all error failed => by rw [same all, unlocated error failed]; exact failed⟩

/-- A reading made of two repeats another if both parts do. -/
theorem bind {first beside : Except Error α} {next behind : α -> Except Error β}
    (head : Repeats whole place first beside)
    (tail : ∀ value, Repeats whole place (next value) (behind value)) :
    Repeats whole place (first >>= next) (beside >>= behind) := by
  cases known : first with
  | ok value =>
      rw [head.ok value known]
      exact tail value
  | error error =>
      refine ⟨fun _ given => (by cases given), fun all other failed => ?_⟩
      cases failed
      rw [head.error all error known]
      rfl

/-- A reading of each entry of a list repeats another if each of them does. -/
theorem mapM {read besideRead : α -> Except Error β} {list : List α}
    (each : ∀ entry ∈ list, Repeats whole place (read entry) (besideRead entry)) :
    Repeats whole place (list.mapM read) (list.mapM besideRead) := by
  induction list with
  | nil => exact .of_ok []
  | cons entry rest hypothesis =>
      rw [List.mapM_cons, List.mapM_cons]
      exact .bind (each entry List.mem_cons_self) fun _ =>
        .bind (hypothesis fun other member =>
          each other (List.mem_cons_of_mem entry member))
          fun _ => .of_ok _

/-- The registers of arguments do not depend on the program. -/
theorem argumentRegister (index : Nat) :
    Repeats whole place (argumentRegister index) (argumentRegister index) := by
  refine .refl ?_
  unfold Emit.argumentRegister
  split
  · exact .ok _
  · exact .fault _

end Repeats

/-- What is read from the program is read in every state. -/
theorem read_run (found : Except Error α) (next : α -> Generator β) (state : State) :
    (liftM found >>= next) state = found >>= fun value => next value state := by
  cases found <;> rfl

/-- A generator beside another that gives the same code in every state. -/
def Echoes (whole : Prop) (place : Nat -> Nat) (generator beside : Generator α) : Prop :=
  ∀ state, Repeats whole place (generator state) (beside state)

namespace Echoes

/-- A value that does not depend on the program. -/
theorem pure (value : α) : Echoes whole place (Pure.pure value) (Pure.pure value) :=
  fun state => .of_ok (value, state)

theorem throw (error : Error) :
    Echoes (α := α) whole place (MonadExcept.throw error)
      (MonadExcept.throw (error.relocate place)) := by
  intro state
  refine ⟨fun _ given => (by cases given), fun _ other failed => ?_⟩
  cases failed
  rfl

/-- A generator whose errors have no place. -/
theorem refl {generator : Generator α}
    (errors : ErrorsIn (fun error => error.relocate place = error) generator) :
    Echoes whole place generator generator :=
  fun state => .refl fun error failed => errors state error failed

/-- A generator made of two echoes another if both parts do. -/
theorem bind {first beside : Generator α} {next behind : α -> Generator β}
    (head : Echoes whole place first beside)
    (tail : ∀ value, Echoes whole place (next value) (behind value)) :
    Echoes whole place (first >>= next) (beside >>= behind) :=
  fun state => (head state).bind fun pair => tail pair.1 pair.2

/-- A generator behind something read from the program. -/
theorem read {found besideFound : Except Error α} {next behind : α -> Generator β}
    (head : Repeats whole place found besideFound)
    (tail : ∀ value, Echoes whole place (next value) (behind value)) :
    Echoes whole place (liftM found >>= next) (liftM besideFound >>= behind) := by
  intro state
  rw [read_run, read_run]
  exact head.bind fun value => tail value state

/-- A generator run for each entry of a list echoes another if each run does. -/
theorem mapM {generate besideGenerate : α -> Generator β} {list : List α}
    (each : ∀ entry ∈ list, Echoes whole place (generate entry) (besideGenerate entry)) :
    Echoes whole place (list.mapM generate) (list.mapM besideGenerate) := by
  induction list with
  | nil => exact .pure []
  | cons entry rest hypothesis =>
      rw [List.mapM_cons, List.mapM_cons]
      exact .bind (each entry List.mem_cons_self) fun _ =>
        .bind (hypothesis fun other member =>
          each other (List.mem_cons_of_mem entry member))
          fun _ => .pure _

/-! ## Several nodes -/

section

variable {again beside : NodeId -> Generator Code}

/-- The code of several nodes is the same if that of each node is. -/
theorem sequence (each : ∀ id, Echoes whole place (again id) (beside id))
    (ids : List NodeId) :
    Echoes whole place (sequence again ids) (sequence beside ids) := by
  induction ids with
  | nil => exact .pure _
  | cons id rest hypothesis =>
      exact .bind (each id) fun _ => .bind hypothesis fun _ => .pure _

/-- The code of a node that may be missing is the same if that of a node is. -/
theorem whenPresent (each : ∀ id, Echoes whole place (again id) (beside id))
    (id : Option NodeId) :
    Echoes whole place (whenPresent again id) (whenPresent beside id) := by
  cases id with
  | none => exact .pure _
  | some present => exact each present

end

theorem push : Echoes whole place push push := .refl .push

theorem pop (reg : Reg) : Echoes whole place (pop reg) (pop reg) := .refl (.pop reg)

/-- Numbers for labels are drawn in the same order. -/
theorem freshNumber : Echoes whole place freshNumber freshNumber := .refl .freshNumber

theorem testTop : Echoes whole place testTop testTop := .refl .testTop

/-- The stack is found balanced in both or in neither. -/
theorem checkBalance (name : String) :
    Echoes whole place (checkBalance name) (checkBalance name) := by
  refine .bind (.refl fun _ _ failed => (by cases failed)) fun state => ?_
  by_cases level : state.depth = 0
  · rw [if_pos level]
    exact .pure ()
  · rw [if_neg level]
    exact .throw _

/-- Arguments are popped into the same registers. -/
theorem popArguments (count : Nat) :
    Echoes whole place (popArguments count) (popArguments count) := by
  refine .refl (.popArguments fun index _ => ?_)
  unfold argumentRegister
  split
  · exact .ok _
  · exact .error rfl

end Echoes

/-- Generators for children beside others. -/
structure Routines.Echo (whole : Prop) (place : Nat -> Nat)
    (again beside : Routines) : Prop where
  address : ∀ id, Echoes whole place (again.address id) (beside.address id)
  value : ∀ id, Echoes whole place (again.value id) (beside.value id)
  statement : ∀ id, Echoes whole place (again.statement id) (beside.statement id)

namespace Echoes

section

variable {again beside : Routines} (echo : again.Echo whole place beside)

include echo

/-- An operator that may skip its right operand gives the same code if its operands do. -/
theorem shortCircuit (jump : Label -> Instr) (role : Role) (decided undecided : Int)
    (lhs rhs : NodeId) :
    Echoes whole place (shortCircuit again jump role decided undecided lhs rhs)
      (shortCircuit beside jump role decided undecided lhs rhs) :=
  .bind .freshNumber fun _ => .bind (echo.value lhs) fun _ => .bind .testTop fun _ =>
    .bind (echo.value rhs) fun _ => .bind .testTop fun _ => .bind .push fun _ => .pure _

/-- A value that is thrown away gives the same code if it does itself. -/
theorem discard (id : NodeId) :
    Echoes whole place (discard again id) (discard beside id) :=
  .bind (echo.value id) fun _ => .bind (.pop _) fun _ => .pure _

/-- A branch gives the same code if its parts do. -/
theorem branch (cond onTrue : NodeId) (onFalse : Option NodeId) :
    Echoes whole place (branch again cond onTrue onFalse)
      (branch beside cond onTrue onFalse) :=
  .bind .freshNumber fun _ => .bind (echo.value cond) fun _ => .bind .testTop fun _ =>
    .bind (echo.statement onTrue) fun _ =>
      .bind (.whenPresent echo.statement onFalse) fun _ => .pure _

/-- The test of a loop gives the same code if its condition does. -/
theorem loopTest (number : Nat) (cond : Option NodeId) :
    Echoes whole place (loopTest again number cond) (loopTest beside number cond) := by
  cases cond with
  | none => exact .pure _
  | some id => exact .bind (echo.value id) fun _ => .bind .testTop fun _ => .pure _

/-- A loop gives the same code if its parts do. -/
theorem loop (init cond step : Option NodeId) (body : NodeId) :
    Echoes whole place (loop again init cond step body)
      (loop beside init cond step body) :=
  .bind .freshNumber fun _ => .bind (.whenPresent echo.statement init) fun _ =>
    .bind (.loopTest echo _ cond) fun _ => .bind (echo.statement body) fun _ =>
      .bind (.whenPresent (discard echo) step) fun _ => .pure _

end

end Echoes

/-! ## Nodes -/

section

variable {program besideProgram : Program}
    (shows : program.Shows whole place besideProgram)

include shows

namespace Repeats

/-- A type is found again. -/
theorem lookupTy (id : TyId) :
    Repeats whole place (program.lookupTy id) (besideProgram.lookupTy id) := by
  refine .of_found (fun ty known => ?_) (.lookupTy program id) fun all => ?_
  · exact Grammar.lookupTy_eq_ok
      (shows.types id.index ty (Program.get?_of_lookupTy known))
  · rw [shows.same all]
    rfl

/-- A symbol is found again. -/
theorem lookupSymbol (id : SymbolId) :
    Repeats whole place (program.lookupSymbol id) (besideProgram.lookupSymbol id) := by
  refine .of_found (fun symbol known => ?_) (.lookupSymbol program id) fun all => ?_
  · exact lookupSymbol_eq_ok.mpr
      (shows.symbols id.index symbol (lookupSymbol_eq_ok.mp known))
  · rw [shows.same all]
    rfl

/-- A node is the same but for its place. -/
theorem lookupNode_bind
    (id : NodeId)
    {next behind : Node -> Except Error β}
    (tail : ∀ node, Repeats whole place (next node) (behind (node.relocate place))) :
    Repeats whole place (program.lookupNode id >>= next)
      (besideProgram.lookupNode id >>= behind) := by
  cases known : program.lookupNode id with
  | ok node =>
      rw [lookupNode_eq_ok.mpr (shows.nodes id node (lookupNode_eq_ok.mp known))]
      exact tail node
  | error error =>
      refine ⟨fun _ given => (by cases given), fun all other failed => ?_⟩
      cases failed
      rw [shows.same all, Program.lookupNode_relocate, known,
        Program.Unlocated.lookupNode program id error known]
      rfl

/-- The type of a node is found again, wherever the node is placed. -/
theorem typeOf (id : NodeId) :
    Repeats whole place (program.typeOf id) (besideProgram.typeOf id) := by
  refine .lookupNode_bind shows id fun node => ?_
  obtain ⟨kind, ty, loc, line⟩ := node
  cases ty with
  | some ty => exact .of_ok ty
  | none => exact .internal _

theorem nodeTy (id : NodeId) :
    Repeats whole place (program.nodeTy id) (besideProgram.nodeTy id) :=
  .bind (.typeOf shows id) fun ty => .lookupTy shows ty

/-- A member is found again. -/
theorem lookupMember (aggregate : TyId) (index : Nat) :
    Repeats whole place (program.lookupMember aggregate index)
      (besideProgram.lookupMember aggregate index) := by
  refine .bind (.lookupTy shows aggregate) fun ty => ?_
  split
  · exact .of_ok _
  · exact .refl (.fault _)

/-- The place of a local variable is found again. -/
theorem frameOffset (id : SymbolId) :
    Repeats whole place (frameOffset program id) (frameOffset besideProgram id) := by
  refine .bind (.lookupSymbol shows id) fun symbol => ?_
  split
  · exact .of_ok _
  · exact .internal _

end Repeats

namespace Echoes

/-- A node is the same but for its place. -/
theorem node
    (id : NodeId)
    {next behind : Node -> Generator β}
    (tail : ∀ node, Echoes whole place (next node) (behind (node.relocate place))) :
    Echoes whole place (liftM (program.lookupNode id) >>= next)
      (liftM (besideProgram.lookupNode id) >>= behind) := by
  intro state
  rw [read_run, read_run]
  exact .lookupNode_bind shows id fun node => tail node state

/-- A variable has the same address. -/
theorem variableAddress (function : String) (id : SymbolId) :
    Echoes whole place (variableAddress ⟨program, function⟩ id)
      (variableAddress ⟨besideProgram, function⟩ id) := by
  refine .read (.lookupSymbol shows id) fun symbol => ?_
  split
  · exact .read (.frameOffset shows id) fun _ => .bind .push fun _ => .pure _
  · exact .bind .push fun _ => .pure _

section

variable {again beside : Routines} (echo : again.Echo whole place beside)
    (function : String)

include echo

/-- An address gives the same code if those of the children do. -/
theorem address (id : NodeId) :
    Echoes whole place (address ⟨program, function⟩ again id)
      (address ⟨besideProgram, function⟩ beside id) := by
  refine .node shows id fun node => ?_
  obtain ⟨kind, ty, loc, line⟩ := node
  cases kind with
  | var symbol => exact .variableAddress shows function symbol
  | deref operand => exact echo.value operand
  | member base aggregate index =>
      refine .read (.lookupMember shows aggregate index) fun found => ?_
      refine .bind (echo.address base) fun _ => ?_
      split
      · exact .pure _
      · exact .bind (.refl (.onTop _)) fun _ => .pure _
  | _ => exact .throw _

/-- A call gives the same code if its arguments do. -/
theorem call (callee : SymbolId) (args : List NodeId) (ty : Ty) :
    Echoes whole place (call ⟨program, function⟩ again callee args ty)
      (call ⟨besideProgram, function⟩ beside callee args ty) :=
  .bind (.sequence echo.value args) fun _ => .bind (.popArguments _) fun _ =>
    .read (.lookupSymbol shows callee) fun _ => .bind (.refl (.alignedCall _)) fun _ =>
      .bind .push fun _ => .pure _

/-- A statement expression gives the same code if its statements do. -/
theorem statementExpression (body : List NodeId) :
    Echoes whole place (statementExpression ⟨program, function⟩ again body)
      (statementExpression ⟨besideProgram, function⟩ beside body) := by
  unfold Emit.statementExpression
  cases body.getLast? with
  | none => exact .throw _
  | some last =>
      refine .bind (.sequence echo.statement _) fun _ => .node shows last fun node => ?_
      obtain ⟨kind, ty, loc, line⟩ := node
      cases kind with
      | exprStmt expr => exact .bind (echo.value expr) fun _ => .pure _
      | _ => exact .throw _

/-- A value gives the same code if those of the children do. -/
theorem value (id : NodeId) :
    Echoes whole place (value ⟨program, function⟩ again id)
      (value ⟨besideProgram, function⟩ beside id) := by
  refine .node shows id fun node => .read (.nodeTy shows id) fun ty => ?_
  obtain ⟨kind, _, loc, line⟩ := node
  cases kind with
  | num number => exact .bind .push fun _ => .pure _
  | var | member =>
      exact .bind (.address shows echo function id) fun _ =>
        .bind (.refl (.load ty)) fun _ => .pure _
  | deref operand =>
      exact .bind (echo.value operand) fun _ => .bind (.refl (.load ty)) fun _ => .pure _
  | addr operand => exact echo.address operand
  | assign lhs rhs =>
      exact .bind (echo.address lhs) fun _ => .bind (echo.value rhs) fun _ =>
        .bind (.refl (.store ty)) fun _ => .pure _
  | comma lhs rhs =>
      exact .bind (echo.value lhs) fun _ => .bind (.pop _) fun _ =>
        .bind (echo.value rhs) fun _ => .pure _
  | stmtExpr body => exact .statementExpression shows echo function body
  | cast operand =>
      exact .bind (echo.value operand) fun _ =>
        .read (.nodeTy shows operand) fun source =>
        .bind (.refl (.convert source ty)) fun _ => .pure _
  | unary op operand =>
      exact .bind (echo.value operand) fun _ => .bind (.refl (.onTop _)) fun _ => .pure _
  | binary op lhs rhs =>
      cases op with
      | logAnd => exact .shortCircuit echo _ _ _ _ lhs rhs
      | logOr => exact .shortCircuit echo _ _ _ _ lhs rhs
      | _ =>
          exact .bind (echo.value lhs) fun _ => .bind (echo.value rhs) fun _ =>
            .bind (.pop _) fun _ => .bind (.refl (.onTop _)) fun _ => .pure _
  | call callee args => exact .call shows echo function callee args ty
  | _ => exact .throw _

/-- A statement gives the same code if those of the children do. -/
theorem statement (id : NodeId) :
    Echoes whole place (statement ⟨program, function⟩ again id)
      (statement ⟨besideProgram, function⟩ beside id) := by
  refine .node shows id fun node => ?_
  obtain ⟨kind, _, loc, line⟩ := node
  cases kind with
  | branch cond onTrue onFalse =>
      exact .bind (.branch echo cond onTrue onFalse) fun _ => .pure _
  | loop init cond step body =>
      exact .bind (.loop echo init cond step body) fun _ => .pure _
  | block body => exact .bind (.sequence echo.statement body) fun _ => .pure _
  | ret result => exact .bind (.whenPresent (.discard echo) result) fun _ => .pure _
  | exprStmt expr => exact .bind (.discard echo expr) fun _ => .pure _
  | goto label => exact .pure _
  | label name body => exact .bind (echo.statement body) fun _ => .pure _
  | _ => exact .throw _

end

/-- The generators for nodes echo each other, if those beside reach as deep. -/
theorem routines
    (function : String)
    (depth more : Nat)
    (enough : depth ≤ more)
    (equal : whole -> depth = more) :
    (routines ⟨program, function⟩ depth).Echo whole place
      (routines ⟨besideProgram, function⟩ more) := by
  induction depth generalizing more with
  | zero =>
      have ends (beside : Generator Code)
          (same : whole -> beside = MonadExcept.throw (.fault .endless)) :
          Echoes whole place (MonadExcept.throw (.fault .endless)) beside := by
        refine fun state => ⟨fun _ given => (by cases given), fun all error failed => ?_⟩
        cases failed
        rw [same all]
        rfl
      refine ⟨fun _ => ends _ fun all => ?_, fun _ => ends _ fun all => ?_,
        fun _ => ends _ fun all => ?_⟩ <;>
      · rw [← equal all]
        rfl
  | succ depth hypothesis =>
      obtain ⟨more, rfl⟩ : ∃ less, more = less + 1 := ⟨more - 1, by omega⟩
      have children := hypothesis more (by omega) fun all => by
        have := equal all
        omega
      exact ⟨.address shows children function, .value shows children function,
        .statement shows children function⟩

end Echoes

/-! ## Declarations -/

/-- The data of a global variable are the same. -/
theorem Repeats.symbolData (id : SymbolId) :
    Repeats whole place (symbolData program id) (symbolData besideProgram id) := by
  refine .bind (.lookupSymbol shows id) fun symbol => ?_
  split
  · exact .bind (.lookupTy shows symbol.ty) fun _ => .of_ok _
  · exact .of_ok _

/-- The parameters are stored to the same places. -/
theorem Repeats.spillFrom (index : Nat) (params : List SymbolId) :
    Repeats whole place (spillFrom program index params)
      (spillFrom besideProgram index params) := by
  induction params generalizing index with
  | nil => exact .of_ok _
  | cons param rest hypothesis =>
      exact .bind (.frameOffset shows param) fun _ =>
        .bind (.lookupSymbol shows param) fun _ =>
        .bind (.lookupTy shows _) fun _ => .bind (.argumentRegister index) fun _ =>
          .bind (hypothesis (index + 1)) fun _ => .of_ok _

/-- The beginning of a function is the same. -/
theorem Repeats.prologue (definition : Program.Definition) :
    Repeats whole place (prologue program definition)
      (prologue besideProgram definition) :=
  .bind (.spillFrom shows 0 _) fun _ => .of_ok _

/-- The text of a function is the same in a program with at least as many nodes. -/
theorem Echoes.functionText (definition : Program.Definition)
    (enough : program.nodes.size ≤ besideProgram.nodes.size) :
    Echoes whole place (functionText program definition)
      (functionText besideProgram definition) := by
  refine .read (.prologue shows definition) fun _ =>
    .bind (.refl fun _ _ failed => ?_) fun _ => ?_
  · cases failed
  have body := Echoes.routines shows definition.symbol.name (program.nodes.size + 1)
    (besideProgram.nodes.size + 1) (by omega) fun all => by
      rw [shows.same all]
      simp [Program.relocate]
  exact .bind (body.statement definition.body) fun _ => .bind (.checkBalance _)
    fun _ => .pure _

end

/-- Code does not depend on where nodes are placed, and errors do as far as they have a
place. -/
theorem program_relocate (program : Program) (name : String) (place : Nat -> Nat) :
    Emit.program (program.relocate place) name =
      (Emit.program program name).mapError (Error.relocate place) := by
  have shows := Program.Shows.relocate program place
  have sameSize : program.nodes.size ≤ (program.relocate place).nodes.size := by
    simp [Program.relocate]
  refine Repeats.eq_mapError (.bind (.mapM fun id _ => .symbolData shows id) fun _ => ?_)
  refine .bind ?_ fun _ => .of_ok _
  exact Echoes.mapM (fun definition _ => .functionText shows definition sameSize) ⟨0, 0⟩

/-! ## A program that goes on -/

section

variable {program more : Program}

/-- The functions of a program stay the functions at the head of one that goes on. -/
theorem definitions_of_begins
    (begins : program.Begins more)
    (ahead : program.globals.toList <+: more.globals.toList)
    (known : ∀ id ∈ program.globals.toList, ∃ symbol, program.symbol? id = some symbol) :
    program.definitions <+: more.definitions := by
  obtain ⟨rest, listed⟩ := ahead
  refine ⟨rest.filterMap more.definition?, ?_⟩
  unfold Program.definitions
  rw [← listed, List.filterMap_append]
  congr 1
  refine List.filterMap_congr fun id member => ?_
  obtain ⟨symbol, found⟩ := known id member
  unfold Program.definition?
  rw [found, show more.symbol? id = some symbol from begins.symbols id.index symbol found]

/-- Data and text stay as they are when the program goes on, and what is added stands
behind each. -/
theorem program_of_begins
    {name : String}
    {lines moreLines : Code}
    (begins : program.Begins more)
    (ahead : program.globals.toList <+: more.globals.toList)
    (known : ∀ id ∈ program.globals.toList, ∃ symbol, program.symbol? id = some symbol)
    (given : Emit.program program name = .ok lines)
    (moreGiven : Emit.program more name = .ok moreLines) :
    ∃ data texts state moreData moreTexts,
      program.globals.toList.mapM (symbolData program) = .ok data ∧
        Gives (program.definitions.mapM (functionText program)) ⟨0, 0⟩ texts state ∧
        lines = header name ++ data.flatten ++ texts.flatten ∧
        moreLines =
          header name ++ data.flatten ++ moreData ++ texts.flatten ++ moreTexts := by
  have shows := Program.Shows.of_begins begins
  obtain ⟨restGlobals, globals⟩ := ahead
  obtain ⟨restDefinitions, definitions⟩ :=
    definitions_of_begins begins ⟨restGlobals, globals⟩ known
  obtain ⟨data, texts, state, sameData, sameTexts, rfl⟩ := program_runs given
  obtain ⟨_, _, _, allData, allTexts, rfl⟩ := program_runs moreGiven
  have repeats : Repeats False id (program.globals.toList.mapM (symbolData program))
      (program.globals.toList.mapM (symbolData more)) :=
    .mapM fun id _ => .symbolData shows id
  have echoes : Echoes False id (program.definitions.mapM (functionText program))
      (program.definitions.mapM (functionText more)) :=
    .mapM fun definition _ => .functionText shows definition begins.nodes.size_le
  rw [← globals, List.mapM_append, repeats.ok data sameData] at allData
  rw [← definitions, List.mapM_append, gives_bind] at allTexts
  obtain ⟨_, _, first, allTexts⟩ := allTexts
  cases ((echoes ⟨0, 0⟩).ok (texts, state) sameTexts).symm.trans first
  simp only [gives_bind, gives_pure] at allTexts
  obtain ⟨moreTexts, _, _, rfl, _⟩ := allTexts
  cases run : restGlobals.mapM (symbolData more) with
  | error error =>
      rw [run] at allData
      cases allData
  | ok moreData =>
      rw [run] at allData
      cases allData
      exact ⟨data, texts, state, moreData.flatten, moreTexts.flatten, sameData,
        sameTexts, rfl, by simp only [List.flatten_append, List.append_assoc]⟩

end


end Emit
end MiniC
