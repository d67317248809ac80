import MiniC.Proofs.Compile
import MiniC.Proofs.Emit.Origin

/-!
# What calls lead to

A call names its function.  The name is looked up like any other, and what it stands for
has to be of a function type.  Functions are declared at file scope, where their types are
checked; but a parameter or another variable may be declared with a function type too, and
then it is called by its name.
-/

namespace MiniC
namespace Program

variable {program : Program} {tokens : TokenStream}

/-- What a call node says of its callee: it is of a function type, the call has the type
of its results, and the call stands at its name. -/
structure Calls (program : Program) (tokens : TokenStream) (node : Node) (callee : Symbol)
    (result : TyId) (params : List Param) : Prop where
  typed : ∃ entry, program.types.get? callee.ty = some entry ∧
    entry.kind = .func result params
  result : node.ty = some result
  place : ∃ index, node.loc = (tokens.get index).loc ∧
    callee.name = (tokens.get index).text

theorem Sound.exists_calls
    (sound : program.Sound tokens)
    {id : NodeId}
    {node : Node}
    {function : SymbolId}
    {args : List NodeId}
    (found : program.node? id = some node)
    (kind : node.kind = .call function args) :
    ∃ callee result params, program.symbol? function = some callee ∧
      program.Calls tokens node callee result params := by
  have rule := sound.nodes id node found
  obtain ⟨result, own, _, typing⟩ := rule.typed
  rw [kind] at typing
  obtain ⟨callee, entry, params, declared, there, isFunction, _⟩ := typing
  obtain ⟨index, loc, named⟩ := rule.place
  refine ⟨callee, result, params, declared, ⟨entry, there, isFunction⟩,
    own, index, loc, ?_⟩
  have known := named function args kind
  rw [name?, declared, Option.map_some] at known
  exact Option.some.inj known

/-- A callee that is declared as a function is one of the file scope, returns no struct or
union, and has few parameters. -/
theorem Sound.callable
    (sound : program.Sound tokens)
    {id : SymbolId}
    {node : Node}
    {callee : Symbol}
    {function : Function}
    {result : TyId}
    {params : List Param}
    (found : program.symbol? id = some callee)
    (calls : program.Calls tokens node callee result params)
    (kind : callee.kind = .function function) :
    id ∈ program.globals ∧
      (∃ returned, program.types.get? result = some returned ∧
        returned.isAggregate = false) ∧
      params.length ≤ 6 := by
  obtain ⟨_, listing⟩ := sound.listing
  obtain ⟨entry, there, isFunction⟩ := calls.typed
  obtain ⟨_, other, otherResult, otherParams, returned, otherThere, otherKind,
    known, scalar, few⟩ := sound.functions id callee function found kind
  obtain rfl := Option.some.inj (there.symm.trans otherThere)
  obtain ⟨rfl, rfl⟩ := TyKind.func.inj (isFunction.symm.trans otherKind)
  exact ⟨listing.functions id callee function found kind, ⟨returned, known, scalar⟩, few⟩

end Program

namespace Emit

open Asm

variable {file : SourceFile} {program : Program} {lines : Code}

/-- An emitted call is that of a call node in the tree of a function, and names its
callee. -/
theorem Placement.exists_call
    (place : Placement program lines)
    {name : String}
    (member : .instr (.call name) ∈ place.text) :
    ∃ id node function args callee, program.Contains place.definition.body id ∧
      program.node? id = some node ∧ node.kind = .call function args ∧
      program.symbol? function = some callee ∧ callee.name = name := by
  cases place.textOrigin member with
  | data data => cases data
  | simple simple => cases simple
  | body origin =>
      cases origin with
      | simple simple => cases simple
      | branch target => cases target
      | copy _ _ _ _ _ _ copies => simp at copies
      | call inside found kind declared =>
          exact ⟨_, _, _, _, _, inside, found, kind, declared, rfl⟩
      | pad pads => simp at pads

/-- Every call of a file is to a symbol of a function type, whose name it stands at.  If
that is a function, it is declared at file scope, returns no struct or union, and has at
most six parameters; otherwise it is a variable that is declared with a function type.
Every emitted call is that of a call in the tree of a function and names its callee. -/
theorem calls_reach_functions_or_variables_of_function_type
    {tokens : TokenStream}
    (cut : tokenize file = .ok tokens)
    (parsed : parseFile file = .ok program) :
    (∀ id node function args, program.node? id = some node ->
      node.kind = .call function args ->
      ∃ callee result params, program.symbol? function = some callee ∧
        program.Calls tokens node callee result params ∧
        ((∃ declared, callee.kind = .function declared) ∧ function ∈ program.globals ∧
            (∃ returned, program.types.get? result = some returned ∧
              returned.isAggregate = false) ∧
            params.length ≤ 6 ∨
          (∃ offset, callee.kind = .localVar offset) ∨ ∃ init,
            callee.kind = .globalVar init)) ∧
    ∀ lines above name below, compileLines file = .ok lines ->
      lines = above ++ .instr (.call name) :: below ->
      ∃ place : Placement program lines, ∃ upper lower id node function args callee,
        place.text = upper ++ .instr (.call name) :: lower ∧
        above = place.earlier ++ upper ∧
        program.Contains place.definition.body id ∧ program.node? id = some node ∧
        node.kind = .call function args ∧ program.symbol? function = some callee ∧
        callee.name = name := by
  obtain ⟨others, otherCut, sound⟩ := exists_tokens_of_parseFile parsed
  obtain rfl := Except.ok.inj (cut.symm.trans otherCut)
  constructor
  · intro id node function args found kind
    obtain ⟨callee, result, params, declared, calls⟩ := sound.exists_calls found kind
    refine ⟨callee, result, params, declared, calls, ?_⟩
    cases callees : callee.kind with
    | function body => exact .inl ⟨⟨body, rfl⟩, sound.callable declared calls callees⟩
    | localVar offset => exact .inr (.inl ⟨offset, rfl⟩)
    | globalVar init => exact .inr (.inr ⟨init, rfl⟩)
  · intro lines above name below compiled divided
    obtain ⟨place, upper, lower, own, above_eq⟩ :=
      Placement.exists_of_line parsed compiled divided rfl
    obtain ⟨id, node, function, args, callee, inside, found, kind, declared, named⟩ :=
      place.exists_call (show .instr (.call name) ∈ place.text by simp [own])
    exact ⟨place, upper, lower, id, node, function, args, callee, own, above_eq,
      inside, found, kind, declared, named⟩

/-- A file with the prototype of a function and a call of it. -/
def prototypeCallFile : SourceFile := ⟨"t.c", "int f(int a); int main() { return f(1); }"⟩

/-- The tokens of that file. -/
def prototypeCallTokens : TokenStream :=
  (tokenize prototypeCallFile).toOption.getD ⟨#[], ⟨.eof, "", 0, 0⟩⟩

/-- The program in that file. -/
def prototypeCallProgram : Program := (parseFile prototypeCallFile).toOption.getD .empty

/-- The lines for that file. -/
def prototypeCallLines : Code := (compileLines prototypeCallFile).toOption.getD []

/-- The call in that file is to the function of the prototype, and `call f` is emitted for
a call of a symbol of that name. -/
theorem prototypeCall_reaches_its_function :
    parseFile prototypeCallFile = .ok prototypeCallProgram ∧
      compileLines prototypeCallFile = .ok prototypeCallLines ∧
      (∃ node callee result params, prototypeCallProgram.node? ⟨2⟩ = some node ∧
        prototypeCallProgram.symbol? ⟨0⟩ = some callee ∧
        prototypeCallProgram.Calls prototypeCallTokens node callee result params ∧
        (∃ declared, callee.kind = .function declared) ∧ params.length ≤ 6) ∧
      ∃ id node function args callee, prototypeCallProgram.node? id = some node ∧
        node.kind = .call function args ∧
        prototypeCallProgram.symbol? function = some callee ∧ callee.name = "f" := by
  have facts : (tokenize prototypeCallFile).isOk = true ∧
      (parseFile prototypeCallFile).isOk = true ∧
      (compileLines prototypeCallFile).isOk = true ∧
      (prototypeCallProgram.node? ⟨2⟩).map (fun node => (node.kind, node.ty)) =
        some (.call ⟨0⟩ [⟨1⟩], some .int) ∧
      (prototypeCallProgram.symbol? ⟨0⟩).map (·.function?.isSome) = some true ∧
      prototypeCallLines = prototypeCallLines.take 13 ++
        .instr (.call "f") :: prototypeCallLines.drop 14 := by decide +kernel
  obtain ⟨cuts, parses, compiles, calling, isFunction, emitted⟩ := facts
  have cut : tokenize prototypeCallFile = .ok prototypeCallTokens := eq_ok_of_isOk cuts
  have parsed : parseFile prototypeCallFile = .ok prototypeCallProgram :=
    eq_ok_of_isOk parses
  have compiled : compileLines prototypeCallFile = .ok prototypeCallLines :=
    eq_ok_of_isOk compiles
  obtain ⟨node, found, kind, _⟩ := exists_node _ _ _ _ calling
  obtain ⟨nodes, emits⟩ := calls_reach_functions_or_variables_of_function_type cut parsed
  refine ⟨parsed, compiled, ?_, ?_⟩
  · obtain ⟨callee, result, params, declared, calls, reached⟩ := nodes _ _ _ _ found kind
    rcases reached with ⟨own, _, _, few⟩ | ⟨_, kind⟩ | ⟨_, kind⟩
    · exact ⟨node, callee, result, params, found, declared, calls, own, few⟩
    · simp [declared, Symbol.function?, kind] at isFunction
    · simp [declared, Symbol.function?, kind] at isFunction
  · obtain ⟨_, _, _, id, node, function, args, callee, _, _, _, there, kind,
      declared, named⟩ :=
      emits _ _ _ _ compiled emitted
    exact ⟨id, node, function, args, callee, there, kind, declared, named⟩

/-- A file in which a parameter of a function type is called. -/
def parameterCallFile : SourceFile := ⟨"t.c", "int g(int f(int)) { return f(1); }"⟩

/-- The program in that file. -/
def parameterCallProgram : Program := (parseFile parameterCallFile).toOption.getD .empty

/-- The lines for that file. -/
def parameterCallLines : Code := (compileLines parameterCallFile).toOption.getD []

/-- That file is compiled.  The call in it is to the parameter, a local variable in the
frame, and what is emitted calls a function that is neither declared nor defined. -/
theorem parameterCall_reaches_no_function :
    parseFile parameterCallFile = .ok parameterCallProgram ∧
      compileLines parameterCallFile = .ok parameterCallLines ∧
      (parameterCallProgram.node? ⟨2⟩).map (·.kind) = some (.call ⟨1⟩ [⟨1⟩]) ∧
      (parameterCallProgram.symbol? ⟨1⟩).map (·.kind) = some (.localVar (some 1)) ∧
      .instr (.call "f") ∈ parameterCallLines ∧
      .label (.symbol "f") ∉ parameterCallLines := by
  have facts : (parseFile parameterCallFile).isOk = true ∧
      (compileLines parameterCallFile).isOk = true ∧
      (parameterCallProgram.node? ⟨2⟩).map (·.kind) = some (.call ⟨1⟩ [⟨1⟩]) ∧
      (parameterCallProgram.symbol? ⟨1⟩).map (·.kind) = some (.localVar (some 1)) ∧
      .instr (.call "f") ∈ parameterCallLines ∧
      .label (.symbol "f") ∉ parameterCallLines := by decide +kernel
  obtain ⟨parses, compiles, observed⟩ := facts
  exact ⟨eq_ok_of_isOk parses, eq_ok_of_isOk compiles, observed⟩

end Emit
end MiniC
