import Parlance.Span
import Parlance.Json.Writer

namespace Parlance

/-! Diagnostics: what is wrong, where, and how serious it is. -/

inductive Code where
  | lexical
  | grammar
  | undefinedVariable
  | undefinedFunction
  | invalidTarget
  | arity
  | type
  | divisionByZero
  | budget
  | cancelled
  | internal
  | io
  | config
  | unreachable
  | callArity
  | unknownFunction
  | unboundVariable
  deriving DecidableEq, Repr

def Code.text : Code → Text
  | lexical => utf8 "E_LEX"
  | grammar => utf8 "E_SYNTAX"
  | undefinedVariable => utf8 "E_UNDEFINED_VARIABLE"
  | undefinedFunction => utf8 "E_UNDEFINED_FUNCTION"
  | invalidTarget => utf8 "E_INVALID_ASSIGNMENT_TARGET"
  | arity => utf8 "E_ARITY"
  | type => utf8 "E_TYPE"
  | divisionByZero => utf8 "E_DIVISION_BY_ZERO"
  | budget => utf8 "E_BUDGET"
  | cancelled => utf8 "E_CANCELLED"
  | internal => utf8 "E_INTERNAL"
  | io => utf8 "E_IO"
  | config => utf8 "E_CONFIG"
  | unreachable => utf8 "W_UNREACHABLE"
  | callArity => utf8 "W_ARITY"
  | unknownFunction => utf8 "W_UNKNOWN_FN"
  | unboundVariable => utf8 "W_UNBOUND_VAR"

/-- A message about a program. The code is kept as text, because a host may
report codes of its own; an empty hint is none. -/
structure Diagnostic where
  code : Text
  message : Text
  span : Option Span
  hint : Text
  deriving DecidableEq, Repr

namespace Diagnostic

def isWarning (diagnostic : Diagnostic) : Bool :=
  Text.hasPrefix (utf8 "W_") diagnostic.code

end Diagnostic

def Span.data (span : Span) : Data :=
  .record [
    (utf8 "file", .text span.file),
    (utf8 "startLine", .int span.start.line),
    (utf8 "startCol", .int span.start.column),
    (utf8 "endLine", .int span.stop.line),
    (utf8 "endCol", .int span.stop.column)]

namespace Diagnostic

/-- A missing span and an empty hint are left out. -/
def data (diagnostic : Diagnostic) : Data :=
  .record (
    [(utf8 "code", .text diagnostic.code), (utf8 "message", .text diagnostic.message)] ++
    (match diagnostic.span with
      | some span => [(utf8 "span", span.data)]
      | none => []) ++
    if diagnostic.hint.isEmpty then [] else [(utf8 "hint", .text diagnostic.hint)])

def pretty (diagnostic : Diagnostic) : Text :=
  let severity := if diagnostic.isWarning then utf8 "warning" else utf8 "error"
  let place :=
    match diagnostic.span with
    | some span => span.text
    | none => utf8 "<unknown>"
  severity ++ utf8 "[" ++ diagnostic.code ++ utf8 "]: " ++ diagnostic.message ++
    utf8 "\n  --> " ++ place ++
    if diagnostic.hint.isEmpty then [] else utf8 "\n  hint: " ++ diagnostic.hint

def render (pretty : Bool) (diagnostic : Diagnostic) : Text :=
  if pretty then diagnostic.pretty else Json.compact diagnostic.data

/-- Several diagnostics: a JSON array, or the forms for people with a blank
line between neighbours. -/
def renderAll (pretty : Bool) (diagnostics : List Diagnostic) : Text :=
  if pretty then Text.join (utf8 "\n\n") (diagnostics.map Diagnostic.pretty)
  else Json.compact (.list (diagnostics.map Diagnostic.data))

end Diagnostic

end Parlance
