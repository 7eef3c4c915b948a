import Parlance.Proofs.Run.Visit

namespace Parlance.Evaluation

/-!
Facts about the work of an evaluation that depend on where in it the work is
done. The walk through the parts of an evaluation is the same whatever is to be
shown, so it is done here once: a property of the work at a machine, in the
course of a whole, holds everywhere as soon as the operations on machines have
it and what is put together from them keeps it.
-/

/-- The work that the task of a visit stands for has the property. -/
def Visit.Does (limits : Limits) (visit : Visit) (has : (α : Type) → Eval α → Prop) : Prop :=
  let enter := invoke limits visit.nesting
  match visit.task with
  | .expression node => has Value (expression limits enter node)
  | .arguments nodes => has (List Value) (expressions limits enter nodes)
  | .statement node => has Completion (statement limits enter node)
  | .statements last nodes => has Completion (statements limits enter last nodes)
  | .body body => has Completion (optionalBlock limits enter body)
  | .invocation body => has Completion (enter body)

/-- What a property has to respect. Work that is done for a part is done for the whole; at a call
and at the start of a statement the property may change between them, so these are whole steps. -/
structure Walk (limits : Limits) (Holds : Visit → Machine → (α : Type) → Eval α → Prop) :
    Prop where
  value {whole : Visit} {machine : Machine} {α : Type} (result : α) :
    Holds whole machine α (pure result)
  fail {whole : Visit} {machine : Machine} {α : Type} (cause : Cause) (span : Span) :
    Holds whole machine α (Machine.fail cause span)
  overflow {whole : Visit} {machine : Machine} {α : Type} : Holds whole machine α (throw .overflow)
  lookup {whole : Visit} {machine : Machine} (name : Text) (span : Span) :
    Holds whole machine Value (Machine.lookup name span)
  assign {whole : Visit} {machine : Machine} (name : Text) (value : Value) :
    Holds whole machine Unit (Machine.assign name value)
  define {whole : Visit} {machine : Machine} (function : Function) :
    Holds whole machine Unit (Machine.define function)
  bind {whole : Visit} {machine : Machine} {α β : Type} {first : Eval α} {next : α → Eval β} :
    Holds whole machine α first →
      (∀ result after, first machine = .ok result after → Holds whole after β (next result)) →
        Holds whole machine β (first >>= next)
  resolve {whole : Visit} {machine : Machine} {α : Type} (name : Text) (span : Span)
    {use : Function → Eval α} :
    (∀ function, machine.environment.function? name = some function →
      Holds whole machine α (use function)) → Holds whole machine α (resolve name span use)
  print {nesting : Nat} {machine after : Machine} {span : Span} {operand : Node} {value : Value}
    {text : Text}
    (evaluated : expression limits (invoke limits nesting) operand machine = .ok value after)
    (shown : value.text? = some text) :
    Holds ⟨nesting, .statement (.unary span .print operand), machine⟩ after Unit (print span text)
  part {whole inner : Visit} {machine : Machine} {α : Type} {work : Eval α} :
    Part limits whole .nothing inner → Holds inner machine α work → Holds whole machine α work
  call {nesting : Nat} {machine after : Machine} {span : Span} {name : Text} {nodes : List Node}
    {function : Function} {values : List Value}
    (found : machine.environment.function? name = some function)
    (matching : nodes.length = function.parameters.length)
    (evaluated : expressions limits (invoke limits nesting) nodes machine = .ok values after) :
    (limits.allowsDepth (after.depth + 1) = true →
      let inner := after.entered span function name values
      Holds ⟨nesting, .invocation function.body, inner⟩ inner Completion
        (invoke limits nesting function.body)) →
      Holds ⟨nesting, .expression (.call span name nodes), machine⟩ after Value
        (Machine.call limits (invoke limits nesting) span function name values)
  step {nesting : Nat} {machine : Machine} {last : Completion} {node : Node} {nodes : List Node} :
    (machine.stop? limits = none → limits.allowsSteps (machine.steps + 1) = true →
      let inner := machine.started node.span
      Holds ⟨nesting, .statement node, inner⟩ inner Completion
        (statement limits (invoke limits nesting) node)) →
      (∀ completion after, machine.stop? limits = none →
        limits.allowsSteps (machine.steps + 1) = true →
        statement limits (invoke limits nesting) node (machine.started node.span) =
          .ok completion after →
        completion.returning = false →
        let inner := after.recorded (.statementEnd node.span)
        Holds ⟨nesting, .statements last (node :: nodes), machine⟩ inner Completion
          (statements limits (invoke limits nesting) completion nodes)) →
        Holds ⟨nesting, .statements last (node :: nodes), machine⟩ machine Completion
          (statements limits (invoke limits nesting) last (node :: nodes))

namespace Walk

variable {limits : Limits} {Holds : Visit → Machine → (α : Type) → Eval α → Prop} {nesting : Nat}
  {machine : Machine}

/-- The property holds of the work that is done for each part. -/
def Inside (limits : Limits) (Holds : Visit → Machine → (α : Type) → Eval α → Prop)
    (whole : Visit) : Prop :=
  ∀ opening inner, Part limits whole opening inner → inner.Does limits (Holds inner inner.machine)

theorem Inside.part {whole inner : Visit} (inside : Inside limits Holds whole)
    (walk : Walk limits Holds) (part : Part limits whole .nothing inner) :
    inner.Does limits (Holds whole inner.machine) := by
  have does := inside _ _ part
  have taken {α : Type} {work : Eval α} : Holds inner inner.machine α work →
      Holds whole inner.machine α work := walk.part part
  obtain ⟨nesting, task, machine⟩ := inner
  cases task <;> exact taken does

theorem ofBinary (walk : Walk limits Holds) {span : Span} {operator : Operator} {left right : Node}
    (inside : Inside limits Holds
      ⟨nesting, .expression (.binary span operator left right), machine⟩) :
    Holds ⟨nesting, .expression (.binary span operator left right), machine⟩ machine Value
      (expression limits (invoke limits nesting) (.binary span operator left right)) := by
  by_cases assigns : operator = .assign
  · subst assigns
    simp only [expression, if_true]
    cases left with
    | reference place name =>
        exact walk.bind (inside.part walk .assigned) fun value after _ =>
          walk.bind (walk.assign name value) fun _ _ _ => walk.value value
    | _ => exact walk.fail ..
  · simp only [expression, if_neg assigns]
    apply walk.bind (inside.part walk (.left assigns))
    intro a after evaluated
    apply walk.bind (inside.part walk (.right assigns evaluated))
    intro b after' _
    cases operator.apply a b with
    | ok value => exact walk.value value
    | error cause => exact walk.fail ..

theorem ofCall (walk : Walk limits Holds) {span : Span} {name : Text} {nodes : List Node}
    (inside : Inside limits Holds ⟨nesting, .expression (.call span name nodes), machine⟩) :
    Holds ⟨nesting, .expression (.call span name nodes), machine⟩ machine Value
      (expression limits (invoke limits nesting) (.call span name nodes)) := by
  rw [expression_call]
  refine walk.resolve name span fun function found => ?_
  split
  · next matching =>
      apply walk.bind (inside.part walk (.arguments found matching))
      intro values after evaluated
      exact walk.call found matching evaluated fun allowed =>
        inside _ _ (.called found matching evaluated allowed)
  · exact walk.fail ..

theorem ofExpression (walk : Walk limits Holds) {node : Node}
    (inside : Inside limits Holds ⟨nesting, .expression node, machine⟩) :
    Holds ⟨nesting, .expression node, machine⟩ machine Value
      (expression limits (invoke limits nesting) node) := by
  cases node with
  | binary => exact walk.ofBinary inside
  | call => exact walk.ofCall inside
  | reference span name => exact walk.lookup name span
  | number _ value => exact walk.value (Value.int value)
  | string _ raw => exact walk.value (Value.str (unquoted raw))
  | _ => exact walk.fail ..

theorem ofArguments (walk : Walk limits Holds) {nodes : List Node}
    (inside : Inside limits Holds ⟨nesting, .arguments nodes, machine⟩) :
    Holds ⟨nesting, .arguments nodes, machine⟩ machine (List Value)
      (expressions limits (invoke limits nesting) nodes) := by
  cases nodes with
  | nil => exact walk.value []
  | cons node nodes =>
      apply walk.bind (inside.part walk .argument)
      intro value after evaluated
      apply walk.bind (inside.part walk (.moreArguments evaluated))
      intro values after' _
      exact walk.value (value :: values)

theorem ofUnary (walk : Walk limits Holds) {span : Span} {operator : Operator} {operand : Node}
    (inside : Inside limits Holds ⟨nesting, .statement (.unary span operator operand), machine⟩) :
    Holds ⟨nesting, .statement (.unary span operator operand), machine⟩ machine Completion
      (statement limits (invoke limits nesting) (.unary span operator operand)) := by
  refine walk.bind ?_ fun _ _ _ => walk.value (Completion.normal .nothing)
  by_cases printing : operator = .print
  · subst printing
    rw [unary_print]
    refine walk.bind (inside.part walk .printed) fun value after evaluated => ?_
    exact printed_cases span value (fun _ => walk.fail ..) fun text shown => walk.print evaluated shown
  · simp only [unary, if_neg printing]
    exact walk.fail ..

theorem ofConditional (walk : Walk limits Holds) {span : Span} {condition : Node}
    {body : Option Block} {alternative : Option Node}
    (inside : Inside limits Holds
      ⟨nesting, .statement (.conditional span condition body alternative), machine⟩) :
    Holds ⟨nesting, .statement (.conditional span condition body alternative), machine⟩ machine
      Completion (statement limits (invoke limits nesting)
        (.conditional span condition body alternative)) := by
  simp only [statement]
  apply walk.bind (inside.part walk .condition)
  intro value after evaluated
  cases truth : value.truth? with
  | none => exact walk.fail ..
  | some truthful =>
      cases truthful with
      | true => exact inside.part walk (.chosen evaluated truth)
      | false =>
          cases alternative with
          | none => exact walk.value (Completion.normal .nothing)
          | some node => exact inside.part walk (.alternative evaluated truth)

theorem ofStatement (walk : Walk limits Holds) {node : Node}
    (inside : Inside limits Holds ⟨nesting, .statement node, machine⟩) :
    Holds ⟨nesting, .statement node, machine⟩ machine Completion
      (statement limits (invoke limits nesting) node) := by
  cases isFormula : node.isFormula with
  | true =>
      rw [statement_formula isFormula]
      exact walk.bind (inside.part walk (.formula isFormula)) fun value _ _ =>
        walk.value (Completion.normal value)
  | false =>
      cases node with
      | declaration _ name parameters body =>
          exact walk.bind (walk.define ⟨name, parameters, body⟩) fun _ _ _ =>
            walk.value (Completion.normal .nothing)
      | conditional => exact walk.ofConditional inside
      | block body => exact inside.part walk .block
      | giveBack span value =>
          exact walk.bind (inside.part walk .given) fun result _ _ =>
            walk.value (Completion.mk result true)
      | unary => exact walk.ofUnary inside
      | _ => contradiction

theorem ofStatements (walk : Walk limits Holds) {last : Completion} {nodes : List Node}
    (inside : Inside limits Holds ⟨nesting, .statements last nodes, machine⟩) :
    Holds ⟨nesting, .statements last nodes, machine⟩ machine Completion
      (statements limits (invoke limits nesting) last nodes) := by
  cases nodes with
  | nil => exact walk.value last
  | cons node nodes =>
      exact walk.step (fun live allowed => inside _ _ (.first live allowed))
        fun completion after live allowed evaluated goesOn =>
          inside.part walk (.next live allowed evaluated goesOn)

/-- Induction along the parts, which end where there is no room for another call. -/
theorem does (walk : Walk limits Holds) (visit : Visit) :
    visit.Does limits (Holds visit visit.machine) := by
  have inside : Inside limits Holds visit := fun opening inner part => walk.does inner
  obtain ⟨nesting, task, machine⟩ := visit
  cases task with
  | expression node => exact walk.ofExpression inside
  | arguments nodes => exact walk.ofArguments inside
  | statement node => exact walk.ofStatement inside
  | statements last nodes => exact walk.ofStatements inside
  | body body =>
      match body with
      | none => exact walk.value (Completion.normal .nothing)
      | some (.mk span nodes) => exact (inside.part walk .inside :)
  | invocation body =>
      cases nesting with
      | zero => exact walk.overflow
      | succ nesting => exact (inside.part walk .invoked :)
termination_by (visit.rank, visit.task.size)
decreasing_by exact part.decreases

end Walk

end Parlance.Evaluation
