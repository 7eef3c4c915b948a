import Parlance.Diagnostic
import Parlance.Tree
import Parlance.Value

namespace Parlance

inductive Cause where
  | undefinedVariable (name : Text)
  | undefinedFunction (name : Text)
  | invalidTarget (form : Text)
  | arity (function : Text) (declared given : Nat)
  | condition (given : Value)
  | addition (left right : Value)
  | arithmetic (operator : Operator) (left right : Value)
  | equality (left right : Value)
  | ordering (operator : Operator) (left right : Value)
  | divisionByZero
  | stepBudget (limit : Int)
  | depthBudget (limit : Int)
  | timeBudget (limit : Int)
  | deadline
  | cancelled
  | writing (reason : Text)
  /-- A binding without a value was to be printed. -/
  | missingValue
  | notAValue (form : Text)
  | unsupportedUnary (operator : Operator)
  | unknownBinary (operator : Operator)
  deriving DecidableEq, Repr

namespace Cause

def code : Cause → Code
  | undefinedVariable _ => .undefinedVariable
  | undefinedFunction _ => .undefinedFunction
  | invalidTarget _ => .invalidTarget
  | arity .. => .arity
  | condition _ | addition .. | arithmetic .. | equality .. | ordering .. => .type
  | divisionByZero => .divisionByZero
  | stepBudget _ | depthBudget _ | timeBudget _ | deadline => .budget
  | cancelled => .cancelled
  | writing _ => .io
  | missingValue | notAValue _ | unsupportedUnary _ | unknownBinary _ => .internal

def typesText (left right : Value) : Text :=
  utf8 ", got " ++ left.typeName ++ utf8 " and " ++ right.typeName

def message : Cause → Text
  | undefinedVariable name => utf8 "variable " ++ Text.quoted name ++ utf8 " is not defined"
  | undefinedFunction name => utf8 "function " ++ Text.quoted name ++ utf8 " is not defined"
  | invalidTarget form => utf8 "cannot assign to " ++ form
  | arity function declared given =>
    utf8 "function " ++ Text.quoted function ++ utf8 " expects " ++ Text.ofNat declared ++
      utf8 " argument(s), got " ++ Text.ofNat given
  | condition given =>
    utf8 "condition must be a boolean or an integer, got " ++ given.typeName
  | addition left right =>
    utf8 "operator '+' requires two integers or two strings" ++ typesText left right
  | arithmetic operator left right =>
    utf8 "operator " ++ Text.quoted operator.spelling ++ utf8 " requires two integers" ++
      typesText left right
  | equality left right =>
    utf8 "operator 'UYTIN' requires two values of the same type" ++ typesText left right
  | ordering operator left right =>
    utf8 "operator " ++ Text.quoted operator.spelling ++
      utf8 " requires two integers or two strings" ++ typesText left right
  | divisionByZero => utf8 "division by zero"
  | stepBudget limit => utf8 "step budget exceeded (max " ++ Text.ofInt limit ++ utf8 ")"
  | depthBudget limit => utf8 "call depth budget exceeded (max " ++ Text.ofInt limit ++ utf8 ")"
  | timeBudget limit => utf8 "time budget exceeded (" ++ Text.ofInt limit ++ utf8 "ms)"
  | deadline => utf8 "time budget exceeded (context deadline exceeded)"
  | cancelled => utf8 "execution cancelled: context canceled"
  | writing reason => utf8 "print failed: " ++ reason
  | missingValue => utf8 "runtime error: invalid memory address or nil pointer dereference"
  | notAValue form => form ++ utf8 " cannot be used as a value"
  | unsupportedUnary operator =>
    utf8 "unsupported unary operator " ++ Text.quoted operator.spelling
  | unknownBinary operator => utf8 "unknown binary operator " ++ Text.quoted operator.spelling

end Cause

/-- A cause and where it arose. Exhausted steps and interruptions have no place. -/
structure Fault where
  cause : Cause
  span : Option Span
  deriving DecidableEq, Repr

namespace Fault

def code (fault : Fault) : Code :=
  fault.cause.code

def message (fault : Fault) : Text :=
  fault.cause.message

def diagnostic (fault : Fault) : Diagnostic :=
  ⟨fault.code.text, fault.message, fault.span, []⟩

end Fault

end Parlance
