import Parlance.Diagnostic
import Parlance.Tree

namespace Parlance

/-!
Lint checks. They warn about calls that cannot succeed, reads of names that
nothing assigns, and statements behind a return. Lookups do not follow the
flow of control: a name counts as assigned in the whole scope that assigns it
anywhere.
-/

structure Known where
  bound : List Text
  /-- Functions with their parameter counts. -/
  functions : List (Text × Int)

def Known.none : Known := ⟨[], []⟩

namespace Lint

mutual

/-- Every declared function with its parameter count, at any depth. -/
def declared : Node → List (Text × Nat)
  | .block body => declaredInBlock body
  | .conditional _ _ body alternative =>
    declaredInOptional body ++ declaredInAlternative alternative
  | .declaration _ name parameters body => (name, parameters.length) :: declaredInOptional body
  | _ => []

def declaredInAll : List Node → List (Text × Nat)
  | [] => []
  | node :: nodes => declared node ++ declaredInAll nodes

def declaredInBlock : Block → List (Text × Nat)
  | .mk _ statements => declaredInAll statements

def declaredInOptional : Option Block → List (Text × Nat)
  | .none => []
  | some body => declaredInBlock body

def declaredInAlternative : Option Node → List (Text × Nat)
  | .none => []
  | some node => declared node

end

def target : Operator → Node → List Text
  | .assign, .reference _ name => [name]
  | _, _ => []

mutual

/-- The names a statement assigns, following branches but not function bodies. -/
def assigned : Node → List Text
  | .block body => assignedInBlock body
  | .conditional _ _ body alternative =>
    assignedInOptional body ++ assignedInAlternative alternative
  | .binary _ operator left _ => target operator left
  | _ => []

def assignedInAll : List Node → List Text
  | [] => []
  | node :: nodes => assigned node ++ assignedInAll nodes

def assignedInBlock : Block → List Text
  | .mk _ statements => assignedInAll statements

def assignedInOptional : Option Block → List Text
  | .none => []
  | some body => assignedInBlock body

def assignedInAlternative : Option Node → List Text
  | .none => []
  | some node => assigned node

end

structure Context where
  /-- Functions that the program itself declares. -/
  declared : List (Text × Nat)
  known : Known

def warning (code : Code) (message : Text) (span : Span) (hint : Text) : Diagnostic :=
  ⟨code.text, message, some span, hint⟩

def insertArity (arity : Nat) : List Nat → List Nat
  | [] => [arity]
  | first :: rest =>
    if arity < first then arity :: first :: rest
    else if arity = first then first :: rest
    else first :: insertArity arity rest

def arities (name : Text) : List (Text × Nat) → List Nat
  | [] => []
  | (other, arity) :: rest =>
    if other = name then insertArity arity (arities name rest) else arities name rest

def arityWarning (span : Span) (name : Text) (given : Nat) (declared : Text) : Diagnostic :=
  warning .callArity
    (utf8 "function " ++ Text.quoted name ++ utf8 " is called with " ++ Text.ofNat given ++
      utf8 " argument(s) but declared with " ++ declared) span []

/-- A call is checked against the program's own declarations first, then
against the known functions. -/
def call (context : Context) (span : Span) (name : Text) (given : Nat) : List Diagnostic :=
  match arities name context.declared with
  | [] =>
    match context.known.functions.lookup name with
    | some arity =>
      if arity = given then [] else [arityWarning span name given (Text.ofInt arity)]
    | none =>
      [warning .unknownFunction (utf8 "function " ++ Text.quoted name ++ utf8 " is never declared")
        span (utf8 "declare it with THE before calling it")]
  | declared =>
    if given ∈ declared then []
    else
      [arityWarning span name given (Text.join (utf8 " or ") (declared.map Text.ofNat))]

/-- Whether a node is a name on the left of an assignment, which is no read. -/
def isTarget (operator : Operator) (left : Node) : Bool :=
  !(target operator left).isEmpty

mutual

def expression (context : Context) (visible : List Text) : Node → List Diagnostic
  | .reference span name =>
    if name ∈ visible then []
    else
      [warning .unboundVariable (utf8 "variable " ++ Text.quoted name ++ utf8 " is never assigned")
        span []]
  | .binary _ operator left right =>
    (if isTarget operator left then [] else expression context visible left) ++
      expression context visible right
  | .call span name arguments =>
    expressions context visible arguments ++ call context span name arguments.length
  | .unary _ _ operand => expression context visible operand
  | _ => []

def expressions (context : Context) (visible : List Text) : List Node → List Diagnostic
  | [] => []
  | node :: nodes => expression context visible node ++ expressions context visible nodes

end

def isReturn : Node → Bool
  | .giveBack .. => true
  | _ => false

def unreachable (node : Node) : Diagnostic :=
  warning .unreachable (utf8 "statement is unreachable after TRA") node.span
    (utf8 "remove it or move it before the return")

/-- Where names may be read that were added to a scope: in the scope itself and
in those inside it. -/
structure Scope where
  names : List Text
  /-- The names of the scopes around, the nearest first. -/
  outer : List (List Text)

namespace Scope

def visible (scope : Scope) : List Text :=
  scope.names ++ scope.outer.flatten

def add (names : List Text) (scope : Scope) : Scope :=
  { scope with names := names ++ scope.names }

def child (names : List Text) (scope : Scope) : Scope :=
  ⟨names, scope.names :: scope.outer⟩

end Scope

/-- What is found in a part of a program. The parts of a body share its scope,
and each may add to it. -/
abbrev Check := StateM Scope (List Diagnostic)

namespace Check

def reading (context : Context) (node : Node) : Check := do
  let scope ← get
  return expression context scope.visible node

def followedBy (first second : Check) : Check := do
  let found ← first
  let more ← second
  return found ++ more

def inside (names : List Text) (check : Check) : Check := do
  let scope ← get
  return (check (scope.child names)).1

end Check

mutual

def checkStatement (context : Context) : Node → Check
  | .declaration _ _ parameters body => .inside parameters (checkOptional context body)
  | .giveBack _ value => .reading context value
  | .conditional _ condition body alternative =>
    (Check.reading context condition).followedBy
      ((checkOptional context body).followedBy (checkAlternative context alternative))
  | .unary _ _ operand => .reading context operand
  | .block body => checkBlock context body
  | node => .reading context node

/-- Only the first statement behind a return is reported, and nothing in it
or behind it is looked at. -/
def checkStatements (context : Context) (returned : Bool) : List Node → Check
  | [] => pure []
  | node :: nodes =>
    if returned then pure [unreachable node]
    else (checkStatement context node).followedBy (checkStatements context (isReturn node) nodes)

/-- The names that a block assigns are added in front of it, although a block
around it has added them before. -/
def checkBlock (context : Context) : Block → Check
  | .mk _ nodes => do
    modify (Scope.add (assignedInAll nodes))
    checkStatements context false nodes

def checkOptional (context : Context) : Option Block → Check
  | .none => pure []
  | some body => checkBlock context body

/-- The alternative of a conditional is looked at if it is a block or another
conditional. -/
def checkAlternative (context : Context) : Option Node → Check
  | some (.conditional _ condition body alternative) =>
    (Check.reading context condition).followedBy
      ((checkOptional context body).followedBy (checkAlternative context alternative))
  | some (.block body) => checkBlock context body
  | _ => pure []

end

end Lint

def Program.lint (program : Program) (known : Known) : List Diagnostic :=
  let context : Lint.Context := ⟨Lint.declaredInAll program.statements, known⟩
  (Lint.checkOptional context program.body ⟨known.bound, []⟩).1

end Parlance
