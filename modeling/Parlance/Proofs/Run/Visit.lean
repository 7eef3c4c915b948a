import Parlance.Proofs.Run.Continuation
import Parlance.Proofs.Run.Trail

namespace Parlance

/-!
Where a run goes. The evaluation of a tree turns to its parts one after the
other, each on the machine that the parts before it have left, and a call turns
to the body of the function. A run that fails does so at one place, and all
that is left to do from there is to close the calls that are open.
-/

/-- The node is evaluated for its value also where it stands as a statement. -/
def Node.isFormula : Node → Bool
  | .number .. | .string .. | .reference .. | .binary .. | .call .. | .program .. => true
  | _ => false

namespace Evaluation

theorem statement_formula {node : Node} (isFormula : node.isFormula = true) (limits : Limits)
    (enter : Enter) :
    statement limits enter node =
      expression limits enter node >>= fun value => pure (.normal value) := by
  cases node <;> first | rfl | contradiction

/-- What is to be evaluated. -/
inductive Task where
  | expression (node : Node)
  | arguments (nodes : List Node)
  /-- A statement that has been started. -/
  | statement (node : Node)
  | statements (last : Completion) (nodes : List Node)
  | body (body : Option Block)
  /-- The body of a function that has been called, if there is room for it. -/
  | invocation (body : Option Block)

/-- A place in a run: a task, the machine on which it is taken up, and how many
calls there is room for inside each other. -/
structure Visit where
  nesting : Nat
  task : Task
  machine : Machine

/-- What has been started but not ended when an evaluation turns to a part. -/
inductive Opening where
  | nothing
  | statement (span : Span)
  | call (span : Span) (name : Text)

/-- The evaluation of the first task takes up the second. -/
inductive Part (limits : Limits) : Visit → Opening → Visit → Prop
  | left {nesting : Nat} {machine : Machine} {span : Span} {operator : Operator}
      {left right : Node} (computes : operator ≠ .assign) :
      Part limits ⟨nesting, .expression (.binary span operator left right), machine⟩ .nothing
        ⟨nesting, .expression left, machine⟩
  | right {nesting : Nat} {machine after : Machine} {span : Span} {operator : Operator}
      {left right : Node} {value : Value} (computes : operator ≠ .assign)
      (evaluated : expression limits (invoke limits nesting) left machine = .ok value after) :
      Part limits ⟨nesting, .expression (.binary span operator left right), machine⟩ .nothing
        ⟨nesting, .expression right, after⟩
  | assigned {nesting : Nat} {machine : Machine} {span place : Span} {name : Text} {right : Node} :
      Part limits
        ⟨nesting, .expression (.binary span .assign (.reference place name) right), machine⟩
        .nothing ⟨nesting, .expression right, machine⟩
  | arguments {nesting : Nat} {machine : Machine} {span : Span} {name : Text} {nodes : List Node}
      {function : Function} (found : machine.environment.function? name = some function)
      (matching : nodes.length = function.parameters.length) :
      Part limits ⟨nesting, .expression (.call span name nodes), machine⟩ .nothing
        ⟨nesting, .arguments nodes, machine⟩
  | called {nesting : Nat} {machine after : Machine} {span : Span} {name : Text}
      {nodes : List Node} {function : Function} {values : List Value}
      (found : machine.environment.function? name = some function)
      (matching : nodes.length = function.parameters.length)
      (evaluated : expressions limits (invoke limits nesting) nodes machine = .ok values after)
      (allowed : limits.allowsDepth (after.depth + 1) = true) :
      Part limits ⟨nesting, .expression (.call span name nodes), machine⟩ (.call span name)
        ⟨nesting, .invocation function.body, after.entered span function name values⟩
  | invoked {nesting : Nat} {machine : Machine} {body : Option Block} :
      Part limits ⟨nesting + 1, .invocation body, machine⟩ .nothing ⟨nesting, .body body, machine⟩
  | argument {nesting : Nat} {machine : Machine} {node : Node} {nodes : List Node} :
      Part limits ⟨nesting, .arguments (node :: nodes), machine⟩ .nothing
        ⟨nesting, .expression node, machine⟩
  | moreArguments {nesting : Nat} {machine after : Machine} {node : Node} {nodes : List Node}
      {value : Value}
      (evaluated : expression limits (invoke limits nesting) node machine = .ok value after) :
      Part limits ⟨nesting, .arguments (node :: nodes), machine⟩ .nothing
        ⟨nesting, .arguments nodes, after⟩
  | formula {nesting : Nat} {machine : Machine} {node : Node}
      (isFormula : node.isFormula = true) :
      Part limits ⟨nesting, .statement node, machine⟩ .nothing ⟨nesting, .expression node, machine⟩
  | printed {nesting : Nat} {machine : Machine} {span : Span} {operand : Node} :
      Part limits ⟨nesting, .statement (.unary span .print operand), machine⟩ .nothing
        ⟨nesting, .expression operand, machine⟩
  | given {nesting : Nat} {machine : Machine} {span : Span} {value : Node} :
      Part limits ⟨nesting, .statement (.giveBack span value), machine⟩ .nothing
        ⟨nesting, .expression value, machine⟩
  | block {nesting : Nat} {machine : Machine} {body : Block} :
      Part limits ⟨nesting, .statement (.block body), machine⟩ .nothing
        ⟨nesting, .body (some body), machine⟩
  | condition {nesting : Nat} {machine : Machine} {span : Span} {condition : Node}
      {body : Option Block} {alternative : Option Node} :
      Part limits ⟨nesting, .statement (.conditional span condition body alternative), machine⟩
        .nothing ⟨nesting, .expression condition, machine⟩
  | chosen {nesting : Nat} {machine after : Machine} {span : Span} {condition : Node}
      {body : Option Block} {alternative : Option Node} {value : Value}
      (evaluated : expression limits (invoke limits nesting) condition machine = .ok value after)
      (holds : value.truth? = some true) :
      Part limits ⟨nesting, .statement (.conditional span condition body alternative), machine⟩
        .nothing ⟨nesting, .body body, after⟩
  | alternative {nesting : Nat} {machine after : Machine} {span : Span} {condition node : Node}
      {body : Option Block} {value : Value}
      (evaluated : expression limits (invoke limits nesting) condition machine = .ok value after)
      (fails : value.truth? = some false) :
      Part limits ⟨nesting, .statement (.conditional span condition body (some node)), machine⟩
        .nothing ⟨nesting, .statement node, after⟩
  | first {nesting : Nat} {machine : Machine} {last : Completion} {node : Node}
      {nodes : List Node} (live : machine.stop? limits = none)
      (allowed : limits.allowsSteps (machine.steps + 1) = true) :
      Part limits ⟨nesting, .statements last (node :: nodes), machine⟩ (.statement node.span)
        ⟨nesting, .statement node, machine.started node.span⟩
  | next {nesting : Nat} {machine after : Machine} {last completion : Completion} {node : Node}
      {nodes : List Node} (live : machine.stop? limits = none)
      (allowed : limits.allowsSteps (machine.steps + 1) = true)
      (evaluated : statement limits (invoke limits nesting) node (machine.started node.span) =
        .ok completion after)
      (goesOn : completion.returning = false) :
      Part limits ⟨nesting, .statements last (node :: nodes), machine⟩ .nothing
        ⟨nesting, .statements completion nodes, after.recorded (.statementEnd node.span)⟩
  | inside {nesting : Nat} {machine : Machine} {span : Span} {nodes : List Node} :
      Part limits ⟨nesting, .body (some (.mk span nodes)), machine⟩ .nothing
        ⟨nesting, .statements (.normal .nothing) nodes, machine⟩

/-- The parts of an evaluation, their parts and so on. -/
inductive Visits (limits : Limits) : Visit → Visit → Prop
  | here {visit : Visit} : Visits limits visit visit
  | part {whole inner visit : Visit} {opening : Opening} (part : Part limits whole opening inner)
      (behind : Visits limits inner visit) : Visits limits whole visit

/-- The evaluation ends early, with this halt and on this machine. -/
def Visit.Fails (limits : Limits) (visit : Visit) (halt : Halt) (after : Machine) : Prop :=
  let enter := invoke limits visit.nesting
  match visit.task with
  | .expression node => expression limits enter node visit.machine = .error halt after
  | .arguments nodes => expressions limits enter nodes visit.machine = .error halt after
  | .statement node => statement limits enter node visit.machine = .error halt after
  | .statements last nodes => statements limits enter last nodes visit.machine = .error halt after
  | .body body => optionalBlock limits enter body visit.machine = .error halt after
  | .invocation body => enter body visit.machine = .error halt after

/-- The place at which an evaluation fails: it ends early although none of its
parts does. -/
def Visit.Breaks (limits : Limits) (visit : Visit) (halt : Halt) (after : Machine) : Prop :=
  visit.Fails limits halt after ∧
    ∀ opening inner, Part limits visit opening inner →
      ∀ halt' after', ¬ inner.Fails limits halt' after'

section Parts

variable {limits : Limits} {whole inner visit : Visit} {opening : Opening} {halt : Halt}
  {after : Machine}

theorem Visit.Fails.unique {halt' : Halt} {after' : Machine}
    (failed : visit.Fails limits halt after) (failed' : visit.Fails limits halt' after') :
    halt = halt' ∧ after = after' := by
  obtain ⟨nesting, task, machine⟩ := visit
  cases task <;> exact EStateM.Result.error.inj (failed.symm.trans failed')

/-- A failure leaves as many calls open as there were. -/
theorem Visit.Fails.depth (failed : visit.Fails limits halt after) :
    after.depth = visit.machine.depth := by
  obtain ⟨nesting, task, machine⟩ := visit
  have related := continuing_corresponds limits limits (invoke limits nesting)
    (invoke_continuing limits nesting)
  have left {α : Type} {work : Eval α} (continues : Continuing work)
      (ended : work machine = .error halt after) : after.depth = machine.depth := by
    have depth := (continues machine).depth
    rwa [ended] at depth
  cases task with
  | expression node => exact left (related.ofExpression node) failed
  | arguments nodes => exact left (related.ofExpressions nodes) failed
  | statement node => exact left (related.ofStatement node) failed
  | statements last nodes => exact left (related.ofStatements last nodes) failed
  | body body => exact left (related.ofOptionalBlock body) failed
  | invocation body => exact left (invoke_continuing limits nesting body) failed

/-- Taking up a part, from the machine that was left before it. -/
inductive Begins : Opening → Machine → Machine → Prop
  | nothing {machine : Machine} : Begins .nothing machine machine
  | statement {machine : Machine} {span : Span} :
      Begins (.statement span) machine (machine.started span)
  | call {machine : Machine} {span : Span} {function : Function} {name : Text}
      {arguments : List Value} :
      Begins (.call span name) machine (machine.entered span function name arguments)

/-- All that was started before the part has ended. -/
theorem Part.begins (part : Part limits whole opening inner) :
    ∃ middle log, whole.machine.Finished limits middle log ∧
      Begins opening middle inner.machine := by
  have related := fun nesting => traced_corresponds limits limits (invoke limits nesting)
    (invoke_traced limits nesting)
  have atOnce {machine : Machine} : ∃ log, machine.Finished limits machine log :=
    ⟨[], .silent rfl rfl rfl rfl rfl⟩
  have taken {before middle : Machine} (finished : ∃ log, before.Finished limits middle log)
      (begins : Begins opening middle inner.machine) :
      ∃ middle log, before.Finished limits middle log ∧ Begins opening middle inner.machine := by
    obtain ⟨log, finished⟩ := finished
    exact ⟨middle, log, finished, begins⟩
  cases part with
  | right _ evaluated =>
      exact taken (((related _).ofExpression _).finished evaluated) .nothing
  | called _ _ evaluated =>
      exact taken (((related _).ofExpressions _).finished evaluated) .call
  | moreArguments evaluated =>
      exact taken (((related _).ofExpression _).finished evaluated) .nothing
  | chosen evaluated =>
      exact taken (((related _).ofExpression _).finished evaluated) .nothing
  | alternative evaluated =>
      exact taken (((related _).ofExpression _).finished evaluated) .nothing
  | next _ _ evaluated =>
      obtain ⟨log, finished⟩ := ((related _).ofStatement _).finished evaluated
      exact taken ⟨_, finished.statement⟩ .nothing
  | first => exact taken atOnce .statement
  | _ => exact taken atOnce .nothing

/-- What is recorded for a failure inside the part when it is left. -/
def Opening.closing (depth : Nat) : Opening → List Event
  | .call span name => [.callEnd span name depth]
  | _ => []

/-- A failure of a part is a failure of the whole. Only a call does something about it. -/
theorem Part.fails (part : Part limits whole opening inner)
    (failed : inner.Fails limits halt after) :
    ∃ after', whole.Fails limits halt after' ∧
      after'.events = opening.closing after.depth ++ after.events := by
  have propagates {visit : Visit} (fails : visit.Fails limits halt after) :
      ∃ after', visit.Fails limits halt after' ∧ after'.events = [] ++ after.events :=
    ⟨after, fails, rfl⟩
  cases part with
  | left computes =>
      refine propagates ?_
      simp only [Visit.Fails, expression, if_neg computes]
      exact bind_of_error failed
  | right computes evaluated =>
      refine propagates ?_
      simp only [Visit.Fails, expression, if_neg computes]
      rw [bind_of_ok evaluated]
      exact bind_of_error failed
  | assigned =>
      refine propagates ?_
      simp only [Visit.Fails, expression, if_true]
      exact bind_of_error failed
  | @arguments _ _ span _ _ _ found matching =>
      refine propagates ?_
      simp only [Visit.Fails]
      rw [expression_call, resolve_of_some span _ found, if_pos matching]
      exact bind_of_error failed
  | @called _ _ middle span name _ _ _ found matching evaluated allowed =>
      -- The call is closed at the depth that the body has left.
      refine ⟨middle.left span name after, ?_, rfl⟩
      simp only [Visit.Fails]
      rw [expression_call, resolve_of_some span _ found, if_pos matching, bind_of_ok evaluated,
        Machine.call_of_allowed _ _ _ _ _ allowed]
      exact congrArg (middle.returned span name) failed
  | invoked => exact propagates failed
  | argument => exact propagates (bind_of_error failed)
  | moreArguments evaluated =>
      refine propagates ?_
      simp only [Visit.Fails, expressions]
      rw [bind_of_ok evaluated]
      exact bind_of_error failed
  | formula isFormula =>
      refine propagates ?_
      simp only [Visit.Fails]
      rw [statement_formula isFormula]
      exact bind_of_error failed
  | printed =>
      refine propagates ?_
      simp only [Visit.Fails, statement]
      rw [unary_print]
      exact bind_of_error (bind_of_error failed)
  | given => exact propagates (bind_of_error failed)
  | block => exact propagates failed
  | condition => exact propagates (bind_of_error failed)
  | chosen evaluated holds =>
      refine propagates ?_
      simp only [Visit.Fails, statement]
      rw [bind_of_ok evaluated, holds]
      exact failed
  | alternative evaluated fails =>
      refine propagates ?_
      simp only [Visit.Fails, statement]
      rw [bind_of_ok evaluated, fails]
      exact failed
  | first live allowed =>
      refine propagates ?_
      simp only [Visit.Fails]
      rw [statements_cons]
      exact step_of_error live allowed failed
  | next live allowed evaluated goesOn =>
      refine propagates ?_
      simp only [Visit.Fails]
      rw [statements_cons, step_of_ok live allowed evaluated, goesOn]
      exact failed
  | inside => exact propagates failed

/-- A task gets smaller from a whole to its parts, except where a call is entered. -/
noncomputable def Task.size : Task → Nat
  | .expression node => sizeOf node
  | .arguments nodes => sizeOf nodes
  | .statement node => sizeOf node + 1
  | .statements _ nodes => sizeOf nodes + 1
  | .body block => sizeOf block
  | .invocation _ => 0

/-- The room for calls, twice as much where a body is being run. -/
def Visit.rank (visit : Visit) : Nat :=
  match visit.task with
  | .invocation _ => 2 * visit.nesting
  | _ => 2 * visit.nesting + 1

theorem Part.decreases (part : Part limits whole opening inner) :
    Prod.Lex (· < ·) (· < ·) (inner.rank, inner.task.size) (whole.rank, whole.task.size) := by
  rw [Prod.lex_def]
  cases part <;> simp [Visit.rank, Task.size] <;> omega

end Parts

section Failures

variable {α β : Type} {limits : Limits} {halt : Halt} {machine after : Machine}

/-- Everything that was started in between has ended. -/
def Settles (before after : Machine) : Prop :=
  ∃ log, Event.Balanced before.depth log ∧ after.events = log.reverse ++ before.events

theorem Settles.refl (machine : Machine) : Settles machine machine :=
  ⟨[], .nil, rfl⟩

theorem Settles.of_finished {log : List Event} (finished : machine.Finished limits after log) :
    Settles machine after :=
  ⟨log, finished.balanced, finished.events⟩

/-- A failure of a part, or one that shows when all that was started has ended. -/
def Descends (limits : Limits) (visit : Visit) (halt : Halt) (after : Machine) : Prop :=
  (∃ opening inner after', Part limits visit opening inner ∧ inner.Fails limits halt after') ∨
    Settles visit.machine after

theorem error_of_bind {first : Eval α} {next : α → Eval β}
    (failed : (first >>= next) machine = .error halt after) :
    first machine = .error halt after ∨
      ∃ result middle, first machine = .ok result middle ∧
        next result middle = .error halt after := by
  cases ended : first machine with
  | error halt' middle =>
      rw [bind_of_error ended] at failed
      cases failed
      exact .inl rfl
  | ok result middle =>
      rw [bind_of_ok ended] at failed
      exact .inr ⟨result, middle, rfl, failed⟩

theorem descend_call {nesting : Nat} {span : Span} {name : Text} {nodes : List Node}
    (failed : expression limits (invoke limits nesting) (.call span name nodes) machine =
      .error halt after) :
    Descends limits ⟨nesting, .expression (.call span name nodes), machine⟩ halt after := by
  have related := traced_corresponds limits limits (invoke limits nesting)
    (invoke_traced limits nesting)
  rw [expression_call] at failed
  cases found : machine.environment.function? name with
  | none =>
      rw [resolve_of_none span _ found] at failed
      cases failed
      exact .inr (.refl machine)
  | some function =>
      rw [resolve_of_some span _ found] at failed
      split at failed
      · next matching =>
          rcases error_of_bind failed with failed | ⟨values, middle, evaluated, failed⟩
          · exact .inl ⟨_, _, _, .arguments found matching, failed⟩
          · obtain ⟨log, finished⟩ := (related.ofExpressions nodes).finished evaluated
            cases allowed : limits.allowsDepth (middle.depth + 1) with
            | false =>
                rw [Machine.call_of_refused _ _ _ _ _ allowed] at failed
                cases failed
                exact .inr ⟨log, finished.balanced, finished.events⟩
            | true =>
                rw [Machine.call_of_allowed _ _ _ _ _ allowed] at failed
                cases ended : invoke limits nesting function.body
                    (middle.entered span function name values) with
                | ok completion inside =>
                    rw [ended] at failed
                    cases failed
                | error halt' inside =>
                    rw [ended] at failed
                    cases failed
                    exact .inl ⟨_, _, _, .called found matching evaluated allowed, ended⟩
      · cases failed
        exact .inr (.refl machine)

theorem descend_binary {nesting : Nat} {span : Span} {operator : Operator} {left right : Node}
    (failed : expression limits (invoke limits nesting) (.binary span operator left right)
      machine = .error halt after) :
    Descends limits ⟨nesting, .expression (.binary span operator left right), machine⟩ halt
      after := by
  have related := traced_corresponds limits limits (invoke limits nesting)
    (invoke_traced limits nesting)
  simp only [expression] at failed
  split at failed
  · next assigns =>
      subst assigns
      cases left with
      | reference place name =>
          rcases error_of_bind failed with failed | ⟨value, middle, _, failed⟩
          · exact .inl ⟨_, _, _, .assigned, failed⟩
          · cases failed
      | _ =>
          cases failed
          exact .inr (.refl machine)
  · next computes =>
      rcases error_of_bind failed with failed | ⟨a, middle, evaluated, failed⟩
      · exact .inl ⟨_, _, _, .left computes, failed⟩
      · rcases error_of_bind failed with failed | ⟨b, middle', evaluated', failed⟩
        · exact .inl ⟨_, _, _, .right computes evaluated, failed⟩
        · obtain ⟨log, finished⟩ := (related.ofExpression left).finished evaluated
          obtain ⟨log', finished'⟩ := (related.ofExpression right).finished evaluated'
          cases applied : operator.apply a b with
          | ok value =>
              rw [applied] at failed
              cases failed
          | error cause =>
              rw [applied] at failed
              cases failed
              exact .inr (.of_finished (finished.trans finished'))

theorem descend_expression {nesting : Nat} {node : Node}
    (failed : expression limits (invoke limits nesting) node machine = .error halt after) :
    Descends limits ⟨nesting, .expression node, machine⟩ halt after := by
  cases node with
  | binary span operator left right => exact descend_binary failed
  | call span name nodes => exact descend_call failed
  | reference span name =>
      simp only [expression] at failed
      cases found : machine.environment.get? name with
      | some value =>
          rw [Machine.lookup_of_some span found] at failed
          cases failed
      | none =>
          rw [Machine.lookup_of_none span found] at failed
          cases failed
          exact .inr (.refl machine)
  | number => cases failed
  | string => cases failed
  | _ =>
      cases failed
      exact .inr (.refl machine)

theorem descend_arguments {nesting : Nat} {nodes : List Node}
    (failed : expressions limits (invoke limits nesting) nodes machine = .error halt after) :
    Descends limits ⟨nesting, .arguments nodes, machine⟩ halt after := by
  cases nodes with
  | nil => cases failed
  | cons node nodes =>
      simp only [expressions] at failed
      rcases error_of_bind failed with failed | ⟨value, middle, evaluated, failed⟩
      · exact .inl ⟨_, _, _, .argument, failed⟩
      · rcases error_of_bind failed with failed | ⟨values, middle', _, failed⟩
        · exact .inl ⟨_, _, _, .moreArguments evaluated, failed⟩
        · cases failed

theorem descend_print {nesting : Nat} {span : Span} {operand : Node}
    (failed : statement limits (invoke limits nesting) (.unary span .print operand) machine =
      .error halt after) :
    Descends limits ⟨nesting, .statement (.unary span .print operand), machine⟩ halt after := by
  have related := traced_corresponds limits limits (invoke limits nesting)
    (invoke_traced limits nesting)
  simp only [statement, unary_print] at failed
  rcases error_of_bind failed with failed | ⟨_, _, _, failed⟩
  · rcases error_of_bind failed with failed | ⟨value, middle, evaluated, failed⟩
    · exact .inl ⟨_, _, _, .printed, failed⟩
    · obtain ⟨log, finished⟩ := (related.ofExpression operand).finished evaluated
      unfold printed at failed
      cases shown : value.text? with
      | none =>
          rw [shown] at failed
          cases failed
          exact .inr (.of_finished finished)
      | some text =>
          simp only [shown, print] at failed
          by_cases full : middle.outlet.room = some 0
          · rw [bind_of_error (Machine.write_of_full span text full)] at failed
            cases failed
            exact .inr (.of_finished finished)
          · rw [bind_of_ok (Machine.write_of_room span text full)] at failed
            cases failed
  · cases failed

theorem descend_conditional {nesting : Nat} {span : Span} {condition : Node}
    {body : Option Block} {alternative : Option Node}
    (failed : statement limits (invoke limits nesting)
      (.conditional span condition body alternative) machine = .error halt after) :
    Descends limits ⟨nesting, .statement (.conditional span condition body alternative), machine⟩
      halt after := by
  have related := traced_corresponds limits limits (invoke limits nesting)
    (invoke_traced limits nesting)
  simp only [statement] at failed
  rcases error_of_bind failed with failed | ⟨value, middle, evaluated, failed⟩
  · exact .inl ⟨_, _, _, .condition, failed⟩
  · cases truth : value.truth? with
    | none =>
        rw [truth] at failed
        cases failed
        obtain ⟨log, finished⟩ := (related.ofExpression condition).finished evaluated
        exact .inr (.of_finished finished)
    | some truthful =>
        rw [truth] at failed
        cases truthful with
        | true => exact .inl ⟨_, _, _, .chosen evaluated truth, failed⟩
        | false =>
            cases alternative with
            | none => cases failed
            | some node => exact .inl ⟨_, _, _, .alternative evaluated truth, failed⟩

theorem descend_statement {nesting : Nat} {node : Node}
    (failed : statement limits (invoke limits nesting) node machine = .error halt after) :
    Descends limits ⟨nesting, .statement node, machine⟩ halt after := by
  cases isFormula : node.isFormula with
  | true =>
      rw [statement_formula isFormula] at failed
      rcases error_of_bind failed with failed | ⟨value, middle, _, failed⟩
      · exact .inl ⟨_, _, _, .formula isFormula, failed⟩
      · cases failed
  | false =>
      cases node with
      | declaration => cases failed
      | conditional => exact descend_conditional failed
      | block body => exact .inl ⟨_, _, _, .block, failed⟩
      | giveBack span value =>
          simp only [statement] at failed
          rcases error_of_bind failed with failed | ⟨result, middle, _, failed⟩
          · exact .inl ⟨_, _, _, .given, failed⟩
          · cases failed
      | unary span operator operand =>
          by_cases printing : operator = .print
          · subst printing
            exact descend_print failed
          · simp only [statement, unary, if_neg printing] at failed
            cases failed
            exact .inr (.refl machine)
      | _ => contradiction

theorem descend_statements {nesting : Nat} {last : Completion} {nodes : List Node}
    (failed : statements limits (invoke limits nesting) last nodes machine = .error halt after) :
    Descends limits ⟨nesting, .statements last nodes, machine⟩ halt after := by
  cases nodes with
  | nil => cases failed
  | cons node nodes =>
      rw [statements_cons] at failed
      have ways := step_stepped limits node.span (statement limits (invoke limits nesting) node)
        (statements limits (invoke limits nesting) · nodes) machine
      generalize step limits node.span _ _ machine = result at ways failed
      cases ways with
      | stopped =>
          cases failed
          exact .inr (.refl machine)
      | refused =>
          cases failed
          exact .inr ⟨[], .nil, rfl⟩
      | failed live allowed ended =>
          cases failed
          exact .inl ⟨_, _, _, .first live allowed, ended⟩
      | returned => cases failed
      | wentOn live allowed ended goesOn =>
          exact .inl ⟨_, _, _, .next live allowed ended goesOn, failed⟩

theorem Visit.Fails.descends {visit : Visit} (failed : visit.Fails limits halt after) :
    Descends limits visit halt after := by
  obtain ⟨nesting, task, machine⟩ := visit
  cases task with
  | expression node => exact descend_expression failed
  | arguments nodes => exact descend_arguments failed
  | statement node => exact descend_statement failed
  | statements last nodes => exact descend_statements failed
  | body body =>
      match body with
      | none => cases failed
      | some (.mk span nodes) => exact .inl ⟨_, _, _, .inside, failed⟩
  | invocation body =>
      cases nesting with
      | zero =>
          cases failed
          exact .inr (.refl machine)
      | succ nesting => exact .inl ⟨_, _, _, .invoked, failed⟩

end Failures

end Evaluation

end Parlance
