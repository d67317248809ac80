import MiniC.Grammar.Declarator

/-!
# Declaration specifiers

```text
specifiers = (word | "typedef" | "static" | aggregate | enum | typedef-name)*
word       = "void" | "_Bool" | "char" | "short" | "int" | "long"
aggregate  = ("struct" | "union") (tag | tag? "{" (specifiers declarators ";")* "}")
enum       = "enum" (tag | tag? "{" constants? "}")
constants  = constant ("," constant)* ","?
constant   = name ("=" number)?
```

Words may stand in any order as long as together they spell a type.  A struct,
union, enum or typedef name has to come first among those that name a type; behind
another it belongs to what follows.  Without any of them the type is `int`.
-/

namespace MiniC
namespace Grammar

/-- The words that spell the primitive types. -/
inductive TypeWord
  | void
  | bool
  | char
  | short
  | int
  | long
  deriving DecidableEq

namespace TypeWord

/-- The word that a keyword stands for. -/
def ofText? : String -> Option TypeWord
  | "void" => some void
  | "_Bool" => some bool
  | "char" => some char
  | "short" => some short
  | "int" => some int
  | "long" => some long
  | _ => none

/-- The spellings of the primitive types. -/
def spellings : List (List TypeWord × TyId) :=
  [([void], .void), ([bool], .bool), ([char], .char),
    ([short], .short), ([short, int], .short), ([int], .int),
    ([long], .long), ([long, int], .long), ([long, long], .long),
    ([long, long, int], .long)]

/-- The type that words spell together, in any order. -/
def spelled? (words : List TypeWord) : Option TyId :=
  (spellings.find? fun spelling => spelling.1.isPerm words).map Prod.snd

end TypeWord

/-- The specifiers read so far: the type they name, its words, whether a named
type stands among them, and the storage classes. -/
structure Specifiers where
  ty : TyId
  words : List TypeWord
  hasNamed : Bool
  storage : Storage

namespace Specifiers

/-- No specifiers. -/
def none : Specifiers := ⟨.int, [], false, ⟨false, false⟩⟩

/-- Whether a type has been named. -/
def namesType (seen : Specifiers) : Bool := seen.hasNamed || !seen.words.isEmpty

/-- Add a word, if a type remains spelled. -/
def addWord? (seen : Specifiers) (word : TypeWord) : Option Specifiers :=
  if seen.hasNamed then
    Option.none
  else
    (TypeWord.spelled? (word :: seen.words)).map fun ty =>
      { seen with ty := ty, words := word :: seen.words }

/-- Add a named type. -/
def addNamed (seen : Specifiers) (ty : TyId) : Specifiers :=
  { seen with ty := ty, hasNamed := true }

end Specifiers

/-- The error for a tag that names no aggregate. -/
def unknownTag : Form -> NamingError
  | .struct => .unknownStruct
  | .union => .unknownUnion

/-- The struct or union that a tag stands for. -/
def taggedAggregate (form : Form) (tag : String) (tok : Nat) : Parser TyId := do
  match (← get).scopes.lookupTag? tag with
  | none => failAt tok (.naming (unknownTag form))
  | some ty =>
      if (← lookupTy ty).isAggregate then
        return ty
      else
        failAt tok (.naming (unknownTag form))

/-- Bind a tag, if there is one, in the innermost scope. -/
def bindTag (tag : Option (String × Nat)) (ty : TyId) : Parser Unit :=
  match tag with
  | some (name, _) => modifyScopes (·.declareTag name ty)
  | none => return

/-- Add the field that a declarator declares. -/
def addField (fields : List Field) (declared : Declarator) (tok : Nat) :
    Parser (List Field) := do
  if (← lookupTy declared.ty).size < 0 then
    failAt tok (.typing .incompleteField)
  return fields ++ [⟨((← get).token tok).text, declared.ty, tok⟩]

/-- The fields of a struct or union up to the closing brace. -/
def fieldList (again : Productions) : Parser (List Field) :=
  iterate [] fun fields => do
    if ← accept closeBrace then
      return .done fields
    else
      let (base, _) ← again.specifiers false
      return .again (← declaratorList again base fields addField)

/-- Give a struct or union its members. -/
def completeTy (id : TyId) (fields : List Field) (tok : Nat) : Parser Unit := do
  match (← get).program.types.complete id fields with
  | .ok types =>
      modify fun state =>
        { state with program := { state.program with types := types } }
  | .error .sizeOverflow => failAt tok (.typing .aggregateTooLarge)
  | .error (.fault reason) => throw (.fault reason)

/-- The body of a struct or union.  Its tag is bound first, so that members can
point back at the type. -/
def aggregateBody (again : Productions) (form : Form)
    (tag : Option (String × Nat)) : Parser TyId := do
  let brace ← position
  expect openBrace
  let id ← enterTy (·.incomplete form brace)
  bindTag tag id
  let fields ← fieldList again
  completeTy id fields brace
  return id

/-- A struct or union behind its keyword. -/
def aggregate (again : Productions) (form : Form) : Parser TyId := do
  let tag ← identifier?
  match tag, (← get).sees openBrace with
  | some (name, tok), false => taggedAggregate form name tok
  | _, _ => aggregateBody again form tag

/-- The enum that a tag stands for. -/
def taggedEnum (tag : String) (tok : Nat) : Parser TyId := do
  match (← get).scopes.lookupTag? tag with
  | none => failAt tok (.naming .unknownEnum)
  | some ty =>
      if (← lookupTy ty).isEnum then
        return ty
      else
        failAt tok (.naming .unknownEnum)

/-- One enum constant.  Without a value of its own it has the given one, which is
missing behind the largest value.  The result is the value for the next. -/
def enumConstant (ty : TyId) (next : Option Int) : Parser (Option Int) := do
  let (name, tok) ← identifier
  let value ←
    if ← accept "=" then
      number
    else
      match next with
      | some value => pure value
      | none => failAt tok (.typing .enumOverflow)
  modifyScopes (·.declareVariable name (.enumConstant ty value))
  return Extent.add? value 1

/-- The constants of an enum up to the closing brace. -/
def enumConstants (ty : TyId) : Parser Unit :=
  iterate (true, some 0) fun (first, next) => do
    if ← accept closeBrace then
      return .done ()
    else if first then
      return .again (false, ← enumConstant ty next)
    else
      expect ","
      if ← accept closeBrace then
        return .done ()
      else
        return .again (false, ← enumConstant ty next)

/-- The body of an enum.  Its tag is bound behind the body. -/
def enumBody (tag : Option (String × Nat)) : Parser TyId := do
  expect openBrace
  let ty ← enterTy (·.enumeration)
  enumConstants ty
  bindTag tag ty
  return ty

/-- An enum behind its keyword. -/
def enumeration : Parser TyId := do
  let tag ← identifier?
  match tag, (← get).sees openBrace with
  | some (name, tok), false => taggedEnum name tok
  | _, _ => enumBody tag

/-- A storage class at the cursor. -/
def storageClass (allowed : Bool) (storage : Storage) : Parser Storage := do
  unless allowed do
    failHere (.grammar .storageClassNotAllowed)
  let extended : Storage :=
    if (← get).sees "typedef" then { storage with isTypedef := true }
    else { storage with isStatic := true }
  if extended.isTypedef && extended.isStatic then
    failHere (.grammar .typedefAndStatic)
  advance
  return extended

/-- A struct, union, enum or typedef name at the cursor. -/
def namedTy (again : Productions) (typedef : Option TyId) : Parser TyId := do
  if ← accept "struct" then
    aggregate again .struct
  else if ← accept "union" then
    aggregate again .union
  else if ← accept "enum" then
    enumeration
  else
    advance
    return typedef.getD .int

/-- A word of a primitive type at the cursor. -/
def typeWord (seen : Specifiers) : Parser Specifiers := do
  match (TypeWord.ofText? (← get).current.text).bind seen.addWord? with
  | none => failHere (.grammar .invalidType)
  | some extended =>
      advance
      return extended

/-- Declaration specifiers: the type they name and the storage classes. -/
def specifiers (again : Productions) (allowed : Bool) :
    Parser (TyId × Storage) :=
  iterate Specifiers.none fun seen => do
    let state ← get
    if !state.startsType state.pos then
      return .done (seen.ty, seen.storage)
    else if state.sees "typedef" || state.sees "static" then
      let storage ← storageClass allowed seen.storage
      return .again { seen with storage := storage }
    else
      let typedef := state.typedefAt? state.pos
      if state.sees "struct" || state.sees "union" || state.sees "enum"
          || typedef.isSome then
        if seen.namesType then
          return .done (seen.ty, seen.storage)
        else
          return .again (seen.addNamed (← namedTy again typedef))
      else
        return .again (← typeWord seen)

/-- A type name: specifiers and an abstract declarator. -/
def typeName (again : Productions) : Parser TyId := do
  let (base, _) ← specifiers again false
  return (← declarator again base).ty

end Grammar
end MiniC
