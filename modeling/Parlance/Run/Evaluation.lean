import Parlance.Run.Machine

namespace Parlance

/-!
Evaluation. The meaning of a tree is a recursion over the tree; the body of a
called function comes from the environment, so it is run by `enter`, and
`invoke` ties the knot by counting down how many more calls may be open.
-/

def Operator.apply (operator : Operator) (left right : Value) : Except Cause Value :=
  match operator with
  | .add =>
    match left, right with
    | .int a, .int b => .ok (.int (a + b))
    | .str a, .str b => .ok (.str (a ++ b))
    | _, _ => .error (.addition left right)
  | .subtract =>
    match left, right with
    | .int a, .int b => .ok (.int (a - b))
    | _, _ => .error (.arithmetic operator left right)
  | .multiply =>
    match left, right with
    | .int a, .int b => .ok (.int (a * b))
    | _, _ => .error (.arithmetic operator left right)
  | .divide =>
    match left, right with
    | .int a, .int b => if b = 0 then .error .divisionByZero else .ok (.int (a / b))
    | _, _ => .error (.arithmetic operator left right)
  | .equal =>
    match left.equal? right with
    | some same => .ok (.bool same)
    | none => .error (.equality left right)
  | .less =>
    match left, right with
    | .int a, .int b => .ok (.bool (a < b))
    | .str a, .str b => .ok (.bool (Text.before a b))
    | _, _ => .error (.ordering operator left right)
  | .greater =>
    match left, right with
    | .int a, .int b => .ok (.bool (b < a))
    | .str a, .str b => .ok (.bool (Text.before b a))
    | _, _ => .error (.ordering operator left right)
  | .atMost =>
    match left, right with
    | .int a, .int b => .ok (.bool (a ≤ b))
    | .str a, .str b => .ok (.bool (!Text.before b a))
    | _, _ => .error (.ordering operator left right)
  | .atLeast =>
    match left, right with
    | .int a, .int b => .ok (.bool (b ≤ a))
    | .str a, .str b => .ok (.bool (!Text.before a b))
    | _, _ => .error (.ordering operator left right)
  | .assign | .print | .unknown _ => .error (.unknownBinary operator)

namespace Evaluation

/-- The value of a string literal: its text without any quotes. -/
def unquoted (raw : Text) : Text :=
  raw.filter (· != Text.quote)

abbrev Enter := Option Block → Eval Completion

mutual

def expression (limits : Limits) (enter : Enter) : Node → Eval Value
  | .number _ value => pure (.int value)
  | .string _ raw => pure (.str (unquoted raw))
  | .reference span name => Machine.lookup name span
  | .binary span operator left right =>
    if operator = .assign then
      match left with
      | .reference _ name => do
        let value ← expression limits enter right
        Machine.assign name value
        pure value
      | other => Machine.fail (.invalidTarget other.form) other.span
    else do
      let a ← expression limits enter left
      let b ← expression limits enter right
      match operator.apply a b with
      | .ok value => pure value
      | .error cause => Machine.fail cause span
  | .call span name nodes => do
    match (← get).environment.function? name with
    | none => Machine.fail (.undefinedFunction name) span
    | some function =>
      if nodes.length = function.parameters.length then
        let values ← expressions limits enter nodes
        Machine.call limits enter span function name values
      else
        Machine.fail (.arity name function.parameters.length nodes.length) span
  | other => Machine.fail (.notAValue other.form) other.span

def expressions (limits : Limits) (enter : Enter) : List Node → Eval (List Value)
  | [] => pure []
  | node :: nodes => do
    let value ← expression limits enter node
    let values ← expressions limits enter nodes
    pure (value :: values)

end

/-- A unary operator is a statement, and print is the only one. -/
def unary (limits : Limits) (enter : Enter) (span : Span) (operator : Operator) (operand : Node) :
    Eval Unit := do
  if operator = .print then
    let value ← expression limits enter operand
    match value.text? with
    | none => Machine.fail .missingValue span
    | some text =>
      Machine.write span text
      Machine.record (.print span text)
  else
    Machine.fail (.unsupportedUnary operator) span

mutual

def statement (limits : Limits) (enter : Enter) : Node → Eval Completion
  | .declaration _ name parameters body => do
    Machine.define ⟨name, parameters, body⟩
    pure (.normal .nothing)
  | .giveBack _ value => do
    let value ← expression limits enter value
    pure ⟨value, true⟩
  | .conditional _ condition body alternative => do
    let value ← expression limits enter condition
    match value.truth? with
    | some true => optionalBlock limits enter body
    | some false => otherwise limits enter alternative
    | none => Machine.fail (.condition value) condition.span
  | .block body => block limits enter body
  | .unary span operator operand => do
    unary limits enter span operator operand
    pure (.normal .nothing)
  | node => do
    let value ← expression limits enter node
    pure (.normal value)

def otherwise (limits : Limits) (enter : Enter) : Option Node → Eval Completion
  | none => pure (.normal .nothing)
  | some node => statement limits enter node

/-- `last` is how the statement before these ended. -/
def statements (limits : Limits) (enter : Enter) (last : Completion) : List Node → Eval Completion
  | [] => pure last
  | node :: nodes => do
    Machine.checkSignal limits
    Machine.countStep limits
    Machine.record (.statementStart node.span)
    let completion ← statement limits enter node
    Machine.record (.statementEnd node.span)
    if completion.returning then pure completion
    else statements limits enter completion nodes

def block (limits : Limits) (enter : Enter) : Block → Eval Completion
  | .mk _ nodes => statements limits enter (.normal .nothing) nodes

def optionalBlock (limits : Limits) (enter : Enter) : Option Block → Eval Completion
  | none => pure (.normal .nothing)
  | some body => block limits enter body

end

/-- Runs a body with room for a number of calls inside each other. -/
def invoke (limits : Limits) : Nat → Enter
  | 0 => fun _ => throw .overflow
  | nesting + 1 => fun body => optionalBlock limits (invoke limits nesting) body

end Evaluation

structure Setup where
  limits : Limits
  outlet : Outlet
  signal : Signal
  /-- How many calls the machine can hold when the limits set no bound. -/
  capacity : Nat

namespace Setup

def standard (limits : Limits) (capacity : Nat := Limits.usualCapacity) : Setup :=
  ⟨limits, .unlimited, .live, capacity⟩

/-- A time limit that is over at once is a deadline, but for a context that was
cancelled before. -/
def initialSignal (setup : Setup) : Signal :=
  if setup.limits.isOverAtOnce ∧ setup.signal ≠ .cancelled then .expired else setup.signal

end Setup

/-- What a finished run shows. Lines and events are in the order they arose. -/
structure Report where
  outcome : Except Halt Completion
  environment : Environment
  steps : Nat
  deepest : Nat
  written : List Text
  events : List Event

def Report.output (report : Report) : Text :=
  report.written.flatten

/-- Runs a program. What it binds and declares stays in the environment, also
when it stops early. -/
def Program.run (program : Program) (environment : Environment) (setup : Setup) : Report :=
  let machine : Machine := {
    environment
    steps := 0
    depth := 0
    deepest := 0
    signal := setup.initialSignal
    cancelled := false
    outlet := setup.outlet
    written := []
    events := [.runStart program.span] }
  let enter := Evaluation.invoke setup.limits (setup.limits.nesting setup.capacity)
  let report (outcome : Except Halt Completion) (after : Machine) : Report :=
    let returned :=
      match outcome with
      | .ok completion => completion.returning
      | .error _ => false
    let ending := Event.runEnd program.span after.steps after.deepest returned outcome.isOk
    ⟨outcome, after.environment, after.steps, after.deepest, after.written.reverse,
      (ending :: after.events).reverse⟩
  match Evaluation.optionalBlock setup.limits enter program.body machine with
  | .ok completion after => report (.ok completion) after
  | .error halt after => report (.error halt) after

end Parlance
