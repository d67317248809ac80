import MiniC.Grammar.Productions
import MiniC.Grammar.Symbol

/-!
# Declarators

```text
declarator = "*"* ("(" declarator ")" | name?) suffix
suffix     = "(" parameters | "[" number "]" suffix | nothing
parameters = ("void" | parameter ("," parameter)*)? ")"
parameter  = specifiers declarator
```

The suffix behind a parenthesised declarator applies before the declarator in the
parentheses, so that one is read twice: first to find its end, then with the type
that the suffix makes.  The name may be missing, so the same production reads
abstract declarators.
-/

namespace MiniC
namespace Grammar

/-- Pointer stars applied to a type. -/
def pointers (base : TyId) : Parser TyId :=
  iterate base fun ty => do
    if ← accept "*" then
      return .again (← pointerTo ty)
    else
      return .done ty

/-- Whether what stands behind an opening parenthesis makes it the start of a
parameter list. -/
def State.startsParameters (state : State) (index : Nat) : Bool :=
  state.seesAt index ")" || state.startsType index

/-- The type of a parameter: an array becomes a pointer to its element. -/
def parameterTy (id : TyId) : Parser TyId := do
  match (← lookupTy id).kind with
  | .array base _ => pointerTo base
  | _ => return id

/-- One parameter. -/
def parameter (again : Productions) : Parser Param := do
  let (base, _) ← again.specifiers false
  let declared ← again.declarator base
  return ⟨← parameterTy declared.ty, declared.name⟩

/-- A parameter list behind its opening parenthesis, made into a function type. -/
def parameters (again : Productions) (result : TyId) : Parser TyId := do
  let state ← get
  if state.sees "void" && state.seesAt (state.pos + 1) ")" then
    advance
    advance
    enterTy (·.function result [])
  else
    let params ← iterate [] fun params => do
      if ← accept ")" then
        return .done params
      else
        unless params.isEmpty do
          expect ","
        return .again (params ++ [← parameter again])
    enterTy (·.function result params)

/-- An array suffix behind its opening bracket. -/
def arraySuffix (again : Productions) (ty : TyId) : Parser TyId := do
  let tok ← position
  let length ← number
  if length < 0 then
    failAt tok (.grammar .negativeArrayLength)
  expect "]"
  let element ← again.suffix ty
  if (← lookupTy element).size < 0 then
    failAt tok (.typing .incompleteElement)
  arrayOf element length tok .arrayTooLarge

/-- The suffixes of a declarator applied to a type. -/
def suffix (again : Productions) (ty : TyId) : Parser TyId := do
  if ← accept "(" then
    parameters again ty
  else if ← accept "[" then
    arraySuffix again ty
  else
    return ty

/-- A declarator in parentheses, from its opening parenthesis on. -/
def nestedDeclarator (again : Productions) (ty : TyId) : Parser Declarator := do
  advance
  let inner ← position
  let _ ← again.declarator .int
  expect ")"
  let outer ← suffix again ty
  let stop ← position
  seek inner
  let declared ← again.declarator outer
  seek stop
  return declared

/-- A declarator applied to a type. -/
def declarator (again : Productions) (base : TyId) : Parser Declarator := do
  let start ← position
  let ty ← pointers base
  let state ← get
  if state.sees "(" && !state.startsParameters (state.pos + 1) then
    let declared ← nestedDeclarator again ty
    return { declared with start := start }
  else
    let name ← identifier?
    return ⟨← suffix again ty, name.map Prod.snd, start⟩

/-- The index of a declarator's name. -/
def Declarator.requireName (declared : Declarator) : Parser Nat := do
  match declared.name with
  | some tok => return tok
  | none => failAt declared.start (.grammar .expectedVariableName)

/-- The declarators up to a semicolon, separated by commas.  Each has a name and
is used, with the index of its name, to extend a result. -/
def declaratorList {σ : Type} (again : Productions) (base : TyId) (start : σ)
    (extend : σ -> Declarator -> Nat -> Parser σ) : Parser σ :=
  iterate (true, start) fun (first, result) => do
    if ← accept ";" then
      return .done result
    else
      unless first do
        expect ","
      let declared ← declarator again base
      let tok ← declared.requireName
      return .again (false, ← extend result declared tok)

end Grammar
end MiniC
