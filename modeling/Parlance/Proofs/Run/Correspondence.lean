import Parlance.Proofs.Run.Machine

namespace Parlance.Evaluation

/-!
Facts about every evaluation. The recursion over trees is the same whatever is
to be shown of it, so it is done here once: a relation between two evaluations
of one tree holds as soon as the operations on machines respect it. Where a
statement has been started more is known than in front of it, and the two sides
are kept apart.
-/

/-- One statement of a list, and what comes behind it unless it returns. -/
def step (limits : Limits) (span : Span) (work : Eval Completion)
    (next : Completion → Eval Completion) : Eval Completion := do
  Machine.checkSignal limits
  Machine.countStep limits
  Machine.record (.statementStart span)
  let completion ← work
  Machine.record (.statementEnd span)
  if completion.returning then pure completion else next completion

section Step

variable {limits : Limits} {span : Span} {work : Eval Completion}
  {next : Completion → Eval Completion} {machine after : Machine}

theorem step_of_stopped {cause : Cause} (stopped : machine.stop? limits = some cause) :
    step limits span work next machine = .error (.fault ⟨cause, none⟩) machine :=
  bind_of_error (Machine.checkSignal_of_stopped stopped)

theorem step_of_refused (live : machine.stop? limits = none)
    (refused : limits.allowsSteps (machine.steps + 1) = false) :
    step limits span work next machine =
      .error (.fault ⟨.stepBudget limits.steps, none⟩) machine.stepped := by
  unfold step
  rw [bind_of_ok (Machine.checkSignal_of_live live)]
  exact bind_of_error (Machine.countStep_of_refused refused)

theorem step_of_error (live : machine.stop? limits = none)
    (allowed : limits.allowsSteps (machine.steps + 1) = true) {halt : Halt}
    (ended : work (machine.started span) = .error halt after) :
    step limits span work next machine = .error halt after := by
  unfold step
  rw [bind_of_ok (Machine.checkSignal_of_live live),
    bind_of_ok (Machine.countStep_of_allowed allowed), bind_of_ok (Machine.record_eq ..)]
  exact bind_of_error ended

theorem step_of_ok (live : machine.stop? limits = none)
    (allowed : limits.allowsSteps (machine.steps + 1) = true) {completion : Completion}
    (ended : work (machine.started span) = .ok completion after) :
    step limits span work next machine =
      (if completion.returning then pure completion else next completion)
        (after.recorded (.statementEnd span)) := by
  unfold step Machine.started at *
  rw [bind_of_ok (Machine.checkSignal_of_live live),
    bind_of_ok (Machine.countStep_of_allowed allowed), bind_of_ok (Machine.record_eq ..),
    bind_of_ok ended, bind_of_ok (Machine.record_eq ..)]

/-- The ways in which a step ends. -/
inductive Stepped (limits : Limits) (span : Span) (work : Eval Completion)
    (next : Completion → Eval Completion) (machine : Machine) :
    EStateM.Result Halt Machine Completion → Prop
  | stopped {cause : Cause} (stopped : machine.stop? limits = some cause) :
      Stepped limits span work next machine (.error (.fault ⟨cause, none⟩) machine)
  | refused (live : machine.stop? limits = none)
      (refused : limits.allowsSteps (machine.steps + 1) = false) :
      Stepped limits span work next machine
        (.error (.fault ⟨.stepBudget limits.steps, none⟩) machine.stepped)
  | failed {halt : Halt} {after : Machine} (live : machine.stop? limits = none)
      (allowed : limits.allowsSteps (machine.steps + 1) = true)
      (ended : work (machine.started span) = .error halt after) :
      Stepped limits span work next machine (.error halt after)
  | returned {completion : Completion} {after : Machine} (live : machine.stop? limits = none)
      (allowed : limits.allowsSteps (machine.steps + 1) = true)
      (ended : work (machine.started span) = .ok completion after)
      (returns : completion.returning = true) :
      Stepped limits span work next machine (.ok completion (after.recorded (.statementEnd span)))
  | wentOn {completion : Completion} {after : Machine} (live : machine.stop? limits = none)
      (allowed : limits.allowsSteps (machine.steps + 1) = true)
      (ended : work (machine.started span) = .ok completion after)
      (goesOn : completion.returning = false) :
      Stepped limits span work next machine
        (next completion (after.recorded (.statementEnd span)))

theorem step_stepped (limits : Limits) (span : Span) (work : Eval Completion)
    (next : Completion → Eval Completion) (machine : Machine) :
    Stepped limits span work next machine (step limits span work next machine) := by
  cases live : machine.stop? limits with
  | some cause =>
      rw [step_of_stopped live]
      exact .stopped live
  | none =>
      cases allowed : limits.allowsSteps (machine.steps + 1) with
      | false =>
          rw [step_of_refused live allowed]
          exact .refused live allowed
      | true =>
          cases ended : work (machine.started span) with
          | error halt after =>
              rw [step_of_error live allowed ended]
              exact .failed live allowed ended
          | ok completion after =>
              rw [step_of_ok live allowed ended]
              cases returning : completion.returning with
              | true => exact .returned live allowed ended returning
              | false => exact .wentOn live allowed ended returning

end Step

/-- Goes on with the function that a name stands for. -/
def resolve {α : Type} (name : Text) (span : Span) (use : Function → Eval α) : Eval α := do
  match (← get).environment.function? name with
  | none => Machine.fail (.undefinedFunction name) span
  | some function => use function

theorem resolve_of_some {α : Type} {machine : Machine} {name : Text} {function : Function}
    (span : Span) (use : Function → Eval α)
    (found : machine.environment.function? name = some function) :
    resolve name span use machine = use function machine := by
  unfold resolve
  rw [bind_get, found]

theorem resolve_of_none {α : Type} {machine : Machine} {name : Text} (span : Span)
    (use : Function → Eval α) (missing : machine.environment.function? name = none) :
    resolve name span use machine =
      .error (.fault ⟨.undefinedFunction name, some span⟩) machine := by
  unfold resolve
  rw [bind_get, missing]
  rfl

def print (span : Span) (text : Text) : Eval Unit := do
  Machine.write span text
  Machine.record (.print span text)

/-- Prints a value, if there is one. -/
def printed (span : Span) (value : Value) : Eval Unit :=
  match value.text? with
  | none => Machine.fail .missingValue span
  | some text => print span text

theorem printed_cases {motive : Eval Unit → Prop} (span : Span) (value : Value)
    (fail : value.text? = none → motive (Machine.fail .missingValue span))
    (print : ∀ text, value.text? = some text → motive (print span text)) :
    motive (printed span value) := by
  unfold printed
  cases shown : value.text? with
  | none => exact fail shown
  | some text => exact print text shown

theorem statements_cons (limits : Limits) (enter : Enter) (last : Completion) (node : Node)
    (nodes : List Node) :
    statements limits enter last (node :: nodes) =
      step limits node.span (statement limits enter node)
        fun completion => statements limits enter completion nodes := by
  rw [statements]
  rfl

theorem expression_call (limits : Limits) (enter : Enter) (span : Span) (name : Text)
    (nodes : List Node) :
    expression limits enter (.call span name nodes) =
      resolve name span fun function =>
        if nodes.length = function.parameters.length then
          expressions limits enter nodes >>= Machine.call limits enter span function name
        else
          Machine.fail (.arity name function.parameters.length nodes.length) span := by
  rw [expression]
  rfl

theorem unary_print (limits : Limits) (enter : Enter) (span : Span) (operand : Node) :
    unary limits enter span .print operand =
      expression limits enter operand >>= printed span := by
  rw [unary, if_pos rfl]
  rfl

/-- What a relation between evaluations has to respect: `Inner` relates what is
done for a statement that has been started, `Outer` what is done in front of
one. A body is entered from inside a statement, and how it is run belongs to
what is related. -/
structure Corresponds (limits limits' : Limits) (enter enter' : Enter)
    (Inner : (α : Type) → Eval α → Eval α → Prop)
    (Outer : Eval Completion → Eval Completion → Prop) : Prop where
  value {α : Type} (result : α) : Inner α (pure result) (pure result)
  bind {α β : Type} {first second : Eval α} {next next' : α → Eval β} :
    Inner α first second → (∀ result, Inner β (next result) (next' result)) →
      Inner β (first >>= next) (second >>= next')
  fail {α : Type} (cause : Cause) (span : Span) :
    Inner α (Machine.fail cause span) (Machine.fail cause span)
  lookup (name : Text) (span : Span) :
    Inner Value (Machine.lookup name span) (Machine.lookup name span)
  resolve {α : Type} (name : Text) (span : Span) {use use' : Function → Eval α} :
    (∀ function, Inner α (use function) (use' function)) →
      Inner α (resolve name span use) (resolve name span use')
  assign (name : Text) (value : Value) :
    Inner Unit (Machine.assign name value) (Machine.assign name value)
  define (function : Function) :
    Inner Unit (Machine.define function) (Machine.define function)
  print (span : Span) (text : Text) : Inner Unit (print span text) (print span text)
  call (span : Span) (function : Function) (name : Text) (arguments : List Value) :
    Inner Value (Machine.call limits enter span function name arguments)
      (Machine.call limits' enter' span function name arguments)
  branch {first second : Eval Completion} : Outer first second → Inner Completion first second
  finish (completion : Completion) : Outer (pure completion) (pure completion)
  step (span : Span) {work work' : Eval Completion} {next next' : Completion → Eval Completion} :
    Inner Completion work work' → (∀ completion, Outer (next completion) (next' completion)) →
      Outer (step limits span work next) (step limits' span work' next')

namespace Corresponds

variable {limits limits' : Limits} {enter enter' : Enter}
  {Inner : (α : Type) → Eval α → Eval α → Prop} {Outer : Eval Completion → Eval Completion → Prop}

mutual

theorem ofExpression (related : Corresponds limits limits' enter enter' Inner Outer) :
    ∀ node : Node,
    Inner Value (expression limits enter node) (expression limits' enter' node)
  | .number _ value => related.value (Value.int value)
  | .string _ raw => related.value (Value.str (unquoted raw))
  | .reference span name => related.lookup name span
  | .binary span operator left right => by
      have leftRelated := related.ofExpression left
      have rightRelated := related.ofExpression right
      simp only [expression]
      split
      · -- Only a reference is assigned to.
        cases left with
        | reference _ name =>
            exact related.bind rightRelated fun value =>
              related.bind (related.assign name value) fun _ => related.value value
        | _ => exact related.fail ..
      · refine related.bind leftRelated fun a => related.bind rightRelated fun b => ?_
        cases operator.apply a b with
        | ok value => exact related.value value
        | error cause => exact related.fail ..
  | .call span name nodes => by
      have argumentsRelated := related.ofExpressions nodes
      rw [expression_call, expression_call]
      refine related.resolve name span fun function => ?_
      split
      · exact related.bind argumentsRelated fun values => related.call ..
      · exact related.fail ..
  | .unary .. => related.fail ..
  | .block .. => related.fail ..
  | .conditional .. => related.fail ..
  | .declaration .. => related.fail ..
  | .giveBack .. => related.fail ..
  | .program .. => related.fail ..

theorem ofExpressions (related : Corresponds limits limits' enter enter' Inner Outer) :
    ∀ nodes : List Node,
    Inner (List Value) (expressions limits enter nodes) (expressions limits' enter' nodes)
  | [] => related.value []
  | node :: nodes =>
      related.bind (related.ofExpression node) fun value =>
        related.bind (related.ofExpressions nodes) fun values => related.value (value :: values)

end

theorem ofUnary (related : Corresponds limits limits' enter enter' Inner Outer)
    (span : Span) (operator : Operator) (operand : Node) :
    Inner Unit (unary limits enter span operator operand)
      (unary limits' enter' span operator operand) := by
  by_cases printing : operator = .print
  · rw [printing, unary_print, unary_print]
    refine related.bind (related.ofExpression operand) fun value => ?_
    exact printed_cases (motive := fun work => Inner Unit work work) span value
      (fun _ => related.fail ..) fun text _ => related.print span text
  · simp only [unary, if_neg printing]
    exact related.fail ..

theorem ofFormula (related : Corresponds limits limits' enter enter' Inner Outer)
    (node : Node) :
    Inner Completion (expression limits enter node >>= fun value => pure (.normal value))
      (expression limits' enter' node >>= fun value => pure (.normal value)) :=
  related.bind (related.ofExpression node) fun value => related.value (Completion.normal value)

mutual

theorem ofStatement (related : Corresponds limits limits' enter enter' Inner Outer) :
    ∀ node : Node,
    Inner Completion (statement limits enter node) (statement limits' enter' node)
  | .declaration _ name parameters body =>
      related.bind (related.define ⟨name, parameters, body⟩) fun _ =>
        related.value (Completion.normal .nothing)
  | .giveBack _ value =>
      related.bind (related.ofExpression value) fun result =>
        related.value (Completion.mk result true)
  | .conditional _ condition body alternative => by
      have bodyRelated := related.ofOptionalBlock body
      have alternativeRelated := related.ofOtherwise alternative
      simp only [statement]
      refine related.bind (related.ofExpression condition) fun value => ?_
      match value.truth? with
      | some true => exact related.branch bodyRelated
      | some false => exact alternativeRelated
      | none => exact related.fail ..
  | .block body => related.branch (related.ofBlock body)
  | .unary span operator operand =>
      related.bind (related.ofUnary span operator operand) fun _ =>
        related.value (Completion.normal .nothing)
  | .number span value => related.ofFormula (.number span value)
  | .string span raw => related.ofFormula (.string span raw)
  | .reference span name => related.ofFormula (.reference span name)
  | .binary span operator left right => related.ofFormula (.binary span operator left right)
  | .call span name nodes => related.ofFormula (.call span name nodes)
  | .program span body => related.ofFormula (.program span body)

theorem ofOtherwise (related : Corresponds limits limits' enter enter' Inner Outer) :
    ∀ node : Option Node,
    Inner Completion (otherwise limits enter node) (otherwise limits' enter' node)
  | none => related.value (Completion.normal .nothing)
  | some node => related.ofStatement node

theorem ofStatements (related : Corresponds limits limits' enter enter' Inner Outer)
    (last : Completion) : ∀ nodes : List Node,
    Outer (statements limits enter last nodes) (statements limits' enter' last nodes)
  | [] => related.finish last
  | node :: nodes => by
      have workRelated := related.ofStatement node
      have behind := fun completion => related.ofStatements completion nodes
      rw [statements_cons, statements_cons]
      exact related.step node.span workRelated behind

theorem ofBlock (related : Corresponds limits limits' enter enter' Inner Outer) :
    ∀ body : Block,
    Outer (block limits enter body) (block limits' enter' body)
  | .mk _ nodes => related.ofStatements (.normal .nothing) nodes

theorem ofOptionalBlock (related : Corresponds limits limits' enter enter' Inner Outer) :
    ∀ body : Option Block,
    Outer (optionalBlock limits enter body) (optionalBlock limits' enter' body)
  | none => related.finish (.normal .nothing)
  | some body => related.ofBlock body

end

end Corresponds

end Parlance.Evaluation
