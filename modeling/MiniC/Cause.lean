/-!
# Causes of rejection

A source text is rejected for the first fault found in it.  The causes are
grouped by the rules they break: the rules of lexemes, of grammar, of names and
of types.  `Cause.message` gives the wording shown to the user, and nothing
else in the library depends on it.
-/

namespace MiniC

/-- Why the digits of a number have no value. -/
inductive NumberError
  | empty
  | invalidDigit
  | tooLarge
  deriving DecidableEq

/-- Broken rules of lexemes. -/
inductive LexicalError
  | unclosedComment
  | invalidNumber (reason : NumberError)
  | unclosedString
  | unclosedCharacter
  | endOfInput
  | invalidHexEscape
  | invalidCharacter (char : Char)
  deriving DecidableEq

/-- Broken rules of grammar. -/
inductive GrammarError
  | expected (wanted found : String)
  | expectedIdentifier (found : String)
  | expectedNumber (found : String)
  | expectedExpression
  | expectedVariableName
  | expectedFunction
  | expectedBlock
  | tooManyParameters
  | tooManyArguments
  | parameterNameOmitted
  | storageClassNotAllowed
  | typedefAndStatic
  | invalidType
  | negativeArrayLength
  | staticLocal
  deriving DecidableEq

/-- Broken rules of names. -/
inductive NamingError
  | undefinedVariable
  | implicitFunction
  | unknownStruct
  | unknownUnion
  | unknownEnum
  | undeclaredLabel
  | duplicateLabel (label : String)
  deriving DecidableEq

/-- Broken rules of types. -/
inductive TypingError
  | returnsAggregate
  | passesAggregate
  | voidVariable
  | incompleteVariable
  | incompleteElement
  | incompleteField
  | arrayTooLarge
  | aggregateTooLarge
  | frameTooLarge
  | stringTooLarge
  | enumOverflow
  | invalidOperand
  | invalidOperands
  | notLvalue
  | invalidDereference
  | voidDereference
  | voidStatementExpression
  | notFunction
  | notAggregate
  | noSuchMember (name : String)
  | castToAggregate
  | castFromAggregate
  | incompatibleAssignment
  | incompletePointee
  | unsizedDifference
  | incompleteSizeof
  deriving DecidableEq

/-- Why a source text is rejected. -/
inductive Cause
  | lexical (error : LexicalError)
  | grammar (error : GrammarError)
  | naming (error : NamingError)
  | typing (error : TypingError)
  deriving DecidableEq

namespace NumberError

/-- The wording of a number error. -/
def message : NumberError -> String
  | empty => "cannot parse integer from empty string"
  | invalidDigit => "invalid digit found in string"
  | tooLarge => "number too large to fit in target type"

end NumberError

namespace LexicalError

/-- The wording of a lexical error. -/
def message : LexicalError -> String
  | unclosedComment => "unclosed block comment"
  | invalidNumber reason => "invalid number: " ++ reason.message
  | unclosedString => "unclosed string literal"
  | unclosedCharacter => "unclosed char literal"
  | endOfInput => "unexpected end of input"
  | invalidHexEscape => "invalid hex escape sequence"
  | invalidCharacter char => "invalid token: '" ++ String.singleton char ++ "'"

end LexicalError

namespace GrammarError

/-- The wording of a grammar error. -/
def message : GrammarError -> String
  | expected wanted found =>
      "expected \"" ++ wanted ++ "\", but got \"" ++ found ++ "\""
  | expectedIdentifier found =>
      "expected an identifier, but got \"" ++ found ++ "\""
  | expectedNumber found => "expected a number, but got \"" ++ found ++ "\""
  | expectedExpression => "expected an expression"
  | expectedVariableName => "expected a variable name"
  | expectedFunction => "expected a function"
  | expectedBlock => "expected a block"
  | tooManyParameters => "too many parameters"
  | tooManyArguments => "too many arguments"
  | parameterNameOmitted => "parameter name omitted"
  | storageClassNotAllowed =>
      "storage class specifier is not allowed in this context"
  | typedefAndStatic => "typedef and static may not be used together"
  | invalidType => "invalid type"
  | negativeArrayLength => "array size is negative"
  | staticLocal => "static local variables are not supported"

end GrammarError

namespace NamingError

/-- The wording of a naming error. -/
def message : NamingError -> String
  | undefinedVariable => "undefined variable"
  | implicitFunction => "implicit declaration of a function"
  | unknownStruct => "unknown struct type"
  | unknownUnion => "unknown union type"
  | unknownEnum => "unknown enum type"
  | undeclaredLabel => "use of undeclared label"
  | duplicateLabel label => "duplicate label '" ++ label ++ "'"

end NamingError

namespace TypingError

/-- The wording of a typing error. -/
def message : TypingError -> String
  | returnsAggregate => "returning a struct or union is not supported"
  | passesAggregate => "passing a struct or union by value is not supported"
  | voidVariable => "variable declared void"
  | incompleteVariable => "variable has incomplete type"
  | incompleteElement => "array has incomplete element type"
  | incompleteField => "field has incomplete type"
  | arrayTooLarge => "array is too large"
  | aggregateTooLarge => "struct or union is too large"
  | frameTooLarge => "stack frame is too large"
  | stringTooLarge => "string literal is too large"
  | enumOverflow => "enum value overflows"
  | invalidOperand => "invalid operand"
  | invalidOperands => "invalid operands"
  | notLvalue => "not an lvalue"
  | invalidDereference => "invalid pointer dereference"
  | voidDereference => "dereferencing a void pointer"
  | voidStatementExpression =>
      "statement expression returning void is not supported"
  | notFunction => "not a function"
  | notAggregate => "not a struct nor a union"
  | noSuchMember name => "no such member '" ++ name ++ "'"
  | castToAggregate => "cannot cast to a struct or union"
  | castFromAggregate => "cannot convert a struct or union to a scalar"
  | incompatibleAssignment => "incompatible types in assignment"
  | incompletePointee => "arithmetic on a pointer to an incomplete type"
  | unsizedDifference => "pointer difference needs a sized element type"
  | incompleteSizeof =>
      "invalid application of 'sizeof' to an incomplete type"

end TypingError

namespace Cause

/-- The wording of a cause. -/
def message : Cause -> String
  | lexical error => error.message
  | grammar error => error.message
  | naming error => error.message
  | typing error => error.message

end Cause
end MiniC
