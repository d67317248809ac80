import MiniC.Proofs.Declarator.Shape

/-!
# Declarators and what they mean

A declarator is pointer stars, a name or a declarator in parentheses, and suffixes.  It is
read from the inside out: what stands around the name is applied to the base type from the
outside, so the suffixes behind a parenthesis come before all that stands inside it.

`Phrase.lexemes` writes a declarator, `Phrase.reading` is the type that it makes of a base
type, and `Phrase.Accepts` says when that type can be made: arrays have elements whose
size is known and a size in range.
-/

namespace MiniC
namespace Declarators

open Precedence Grammar

/-- What names stand for where a declarator is read, and the types that are there. -/
structure Setting where
  scopes : Scopes
  types : TypeTable

/-! ## Specifiers -/

/-- The keywords that a tag stands behind. -/
inductive TagKeyword
  | struct
  | union
  | enum

namespace TagKeyword

def text : TagKeyword -> String
  | struct => "struct"
  | union => "union"
  | enum => "enum"

/-- Whether a keyword may refer to a type. -/
def refersTo (keyword : TagKeyword) (ty : Ty) : Bool :=
  match keyword with
  | struct | union => ty.isAggregate
  | enum => ty.isEnum

end TagKeyword

/-- The spelling of a word. -/
def wordText : TypeWord -> String
  | .void => "void"
  | .bool => "_Bool"
  | .char => "char"
  | .short => "short"
  | .int => "int"
  | .long => "long"

/-- The specifiers of a parameter: words, a typedef name or a tag. -/
inductive Specifier
  | words (first : TypeWord) (more : List TypeWord)
  | typedef (name : Identifier)
  | tagged (keyword : TagKeyword) (tag : Identifier)

namespace Specifier

def lexemes : Specifier -> List Lexeme
  | words first more => (first :: more).map fun word => .symbol (wordText word)
  | typedef name => [.name name]
  | tagged keyword tag => [.symbol keyword.text, .name tag]

/-- The type that specifiers name, if they name one. -/
def ty? (setting : Setting) : Specifier -> Option TyId
  | words first more => TypeWord.spelled? (first :: more)
  | typedef name => setting.scopes.typedef? name.text
  | tagged keyword tag =>
      (setting.scopes.lookupTag? tag.text).filter fun id =>
        (setting.types.get? id).any keyword.refersTo

/-- The structure that specifiers name. -/
def shape (setting : Setting) (specifier : Specifier) : Shape :=
  .given ((specifier.ty? setting).getD .int)

/-- A name that stands as a typedef name is one. -/
def Clear (scopes : Scopes) : Specifier -> Prop
  | typedef name => (scopes.typedef? name.text).isSome
  | words _ _ | tagged _ _ => True

end Specifier

/-! ## Declarators -/

mutual

/-- A declarator, which may lack its name. -/
inductive Phrase
  | plain (stars : Nat) (name : Option Identifier) (suffix : Suffix)
  | nested (stars : Nat) (inner : Phrase) (suffix : Suffix)

/-- What stands behind the name or the parentheses of a declarator. -/
inductive Suffix
  | nothing
  | array (length : Nat) (rest : Suffix)
  | function (params : Parameters)

/-- The parameters of a function type. -/
inductive Parameters
  | nil
  | cons (specifier : Specifier) (phrase : Phrase) (rest : Parameters)

end

/-- The stars of a declarator. -/
def stars (count : Nat) : List Lexeme := List.replicate count (.symbol "*")

mutual

def Phrase.lexemes : Phrase -> List Lexeme
  | .plain count name suffix => stars count ++ (name.toList.map .name ++ suffix.lexemes)
  | .nested count inner suffix =>
      stars count ++ .symbol "(" :: (inner.lexemes ++ .symbol ")" :: suffix.lexemes)

def Suffix.lexemes : Suffix -> List Lexeme
  | .nothing => []
  | .array length rest => .symbol "[" :: .number length :: .symbol "]" :: rest.lexemes
  | .function params => .symbol "(" :: (params.following.tail ++ [.symbol ")"])

/-- Parameters with a comma before each. -/
def Parameters.following : Parameters -> List Lexeme
  | .nil => []
  | .cons specifier phrase rest =>
      .symbol "," :: (specifier.lexemes ++ (phrase.lexemes ++ rest.following))

end

/-- The word `void` alone, which says that there are no parameters. -/
def Parameters.isVoid : Parameters -> Bool
  | .cons (.words .void []) (.plain 0 none .nothing) .nil => true
  | _ => false

/-- The innermost name. -/
def Phrase.name : Phrase -> Option Identifier
  | .plain _ name _ => name
  | .nested _ inner _ => inner.name

/-- How many lexemes stand before the innermost name. -/
def Phrase.nameOffset : Phrase -> Option Nat
  | .plain count name _ => name.map fun _ => count
  | .nested count inner _ => inner.nameOffset.map (count + 1 + ·)

/-! ## Meaning -/

mutual

/-- The type that a declarator makes of a base type. -/
def Phrase.reading (setting : Setting) : Phrase -> Shape -> Shape
  | .plain count _ suffix, base => suffix.reading setting (base.pointers count)
  | .nested count inner suffix, base =>
      inner.reading setting (suffix.reading setting (base.pointers count))

def Suffix.reading (setting : Setting) : Suffix -> Shape -> Shape
  | .nothing, base => base
  | .array length rest, base => .array (rest.reading setting base) length
  | .function params, base =>
      .function base (if params.isVoid then .nil else params.reading setting)

def Parameters.reading (setting : Setting) : Parameters -> Shapes
  | .nil => .nil
  | .cons specifier phrase rest =>
      .cons phrase.name
        ((phrase.reading setting (specifier.shape setting)).decayed setting.types)
        (rest.reading setting)

end

mutual

/-- A declarator makes a type of a base type.  What stands in parentheses has to make one
of `int` too. -/
def Phrase.Accepts (setting : Setting) : Phrase -> Shape -> Prop
  | .plain count _ suffix, base => suffix.Accepts setting (base.pointers count)
  | .nested count inner suffix, base =>
      inner.Accepts setting (.given .int) ∧ suffix.Accepts setting (base.pointers count) ∧
        inner.Accepts setting (suffix.reading setting (base.pointers count))

def Suffix.Accepts (setting : Setting) : Suffix -> Shape -> Prop
  | .nothing, _ => True
  | .array length rest, base =>
      rest.Accepts setting base ∧ 0 ≤ (rest.reading setting base).size setting.types ∧
        Extent.InRange ((rest.reading setting base).size setting.types * length)
  | .function params, _ => params.Accepts setting

def Parameters.Accepts (setting : Setting) : Parameters -> Prop
  | .nil => True
  | .cons specifier phrase rest =>
      (specifier.ty? setting).isSome ∧
        phrase.Accepts setting (specifier.shape setting) ∧ rest.Accepts setting

end

/-! ## Where a declarator begins and ends -/

/-- A declarator that is not empty and does not begin with the name of a type. -/
def Phrase.Opens (scopes : Scopes) (phrase : Phrase) : Prop :=
  match phrase.lexemes with
  | [] => False
  | .name name :: _ => scopes.typedef? name.text = none
  | _ => True

mutual

/-- Whatever stands in parentheses does not look like parameters, and parameters begin
with the name of a type. -/
def Phrase.Clear (scopes : Scopes) : Phrase -> Prop
  | .plain _ _ suffix => suffix.Clear scopes
  | .nested _ inner suffix => inner.Opens scopes ∧ inner.Clear scopes ∧
    suffix.Clear scopes

def Suffix.Clear (scopes : Scopes) : Suffix -> Prop
  | .nothing => True
  | .array _ rest => rest.Clear scopes
  | .function params => params.Clear scopes

def Parameters.Clear (scopes : Scopes) : Parameters -> Prop
  | .nil => True
  | .cons specifier phrase rest =>
      specifier.Clear scopes ∧ phrase.Clear scopes ∧ rest.Clear scopes

end

/-- A token does not continue a suffix. -/
def Suffix.Ends (token : Token) : Suffix -> Prop
  | .nothing => token.isSymbol "[" = false ∧ token.isSymbol "(" = false
  | .array _ rest => rest.Ends token
  | .function _ => True

/-- A token does not continue a declarator. -/
def Phrase.Ends (token : Token) : Phrase -> Prop
  | .plain _ none .nothing =>
      token.isSymbol "[" = false ∧ token.isSymbol "(" = false ∧
      token.isSymbol "*" = false ∧
        token.isIdentifier = false
  | .plain _ _ suffix | .nested _ _ suffix => suffix.Ends token

end Declarators
end MiniC
