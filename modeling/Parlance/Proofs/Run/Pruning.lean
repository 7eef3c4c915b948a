import Parlance.Proofs.Lint.Pruning
import Parlance.Proofs.Run.Translation

namespace Parlance

/-!
Runs of pruned programs. Nothing behind a return is carried out, so a program
runs like its pruned form. The functions it declares differ by the same pruning
from those that the pruned form declares, and so do those in the environment.
-/

namespace Environment

theorem get?_pruned (environment : Environment) (name : Text) :
    environment.pruned.get? name = environment.get? name := rfl

theorem define_pruned (environment : Environment) (function : Function) :
    (environment.define function).pruned = environment.pruned.define function.pruned :=
  define_mapFunctions Function.pruned (fun _ => rfl) environment function

theorem function?_pruned (environment : Environment) (name : Text) :
    environment.pruned.function? name = (environment.function? name).map Function.pruned :=
  function?_mapFunctions Function.pruned environment name

end Environment

namespace Evaluation

/-- How machines differ when the functions of one of them are pruned. -/
def Alteration.pruning (limits : Limits) : Alteration limits limits (fun _ => False) :=
  .ofEnvironment limits Environment.pruned (fun _ _ _ => rfl)
    (fun found => (Environment.get?_pruned ..).trans found)
    (fun _ missing => .inr ((Environment.get?_pruned ..).trans missing))

/-- The second computation does on pruned functions what the first one does. -/
abbrev FollowsPruned {α : Type} (limits : Limits) (first second : Eval α) : Prop :=
  Follows (fun _ => False) (Alteration.pruning limits).machine first second

namespace FollowsPruned

variable {α : Type} {limits : Limits}

theorem define (function : Function) :
    FollowsPruned limits (Machine.define function) (Machine.define function.pruned) :=
  fun machine => by
    have moved : (Alteration.pruning limits).machine
          { machine with environment := machine.environment.define function } =
        { (Alteration.pruning limits).machine machine with
          environment := machine.environment.pruned.define function.pruned } := by
      rw [← Environment.define_pruned]
      rfl
    change Seen _ _ (.ok () _) (.ok () { (Alteration.pruning limits).machine machine with
      environment := machine.environment.pruned.define function.pruned })
    rw [← moved]
    exact .ok () _

theorem resolve (name : Text) (span : Span) {use use' : Function → Eval α}
    (behind : ∀ function, FollowsPruned limits (use function) (use' function.pruned)) :
    FollowsPruned limits (resolve name span use) (resolve name span use') := by
  intro machine
  have seen : ((Alteration.pruning limits).machine machine).environment.function? name =
      (machine.environment.function? name).map Function.pruned :=
    machine.environment.function?_pruned name
  cases found : machine.environment.function? name with
  | some function =>
      rw [found, Option.map_some] at seen
      rw [resolve_of_some span use found, resolve_of_some span use' seen]
      exact behind function machine
  | none =>
      rw [found, Option.map_none] at seen
      rw [resolve_of_none span use found, resolve_of_none span use' seen]
      exact .error _ machine

end FollowsPruned

section Returns

variable (limits : Limits) (enter : Enter)

/-- Behind a return nothing is carried out, whatever would come next. -/
theorem step_giveBack (span : Span) (value : Node) (next next' : Completion → Eval Completion) :
    step limits span (statement limits enter (.giveBack span value)) next =
      step limits span (statement limits enter (.giveBack span value)) next' := by
  simp only [step, statement, bind_assoc, pure_bind, if_true]

theorem statements_upToReturn (last : Completion) (nodes : List Node) :
    statements limits enter last (Node.upToReturn nodes) = statements limits enter last nodes := by
  induction nodes generalizing last with
  | nil => rfl
  | cons node nodes inductionHypothesis =>
      rw [Node.upToReturn, statements_cons, statements_cons]
      cases node with
      | giveBack span value => exact step_giveBack limits enter span value _ _
      | _ => simp only [Lint.isReturn, Bool.false_eq_true, if_false, inductionHypothesis]

end Returns

section Trees

variable (limits : Limits) {enter enter' : Enter}

/-- Bodies are run with pruned functions as they are run with the functions themselves. -/
def EntersPruned (limits : Limits) (enter enter' : Enter) : Prop :=
  ∀ body, FollowsPruned limits (enter body) (enter' (Block.prunedOption body))

mutual

theorem expression_pruned (entering : EntersPruned limits enter enter') : ∀ node : Node,
    FollowsPruned limits (expression limits enter node) (expression limits enter' node)
  | .number _ value => .value (Value.int value)
  | .string _ raw => .value (Value.str (unquoted raw))
  | .reference span name => (Alteration.pruning limits).lookup name span
  | .binary span operator left right => by
      have leftFollows := expression_pruned entering left
      have rightFollows := expression_pruned entering right
      simp only [expression]
      split
      · cases left with
        | reference _ name =>
            exact rightFollows.bind fun value =>
              ((Alteration.pruning limits).assign name value).bind fun _ => .value value
        | _ => exact .fail _ _
      · refine leftFollows.bind fun a => rightFollows.bind fun b => ?_
        cases operator.apply a b with
        | ok value => exact .value value
        | error cause => exact .fail _ _
  | .call span name nodes => by
      have argumentsFollow := expressions_pruned entering nodes
      rw [expression_call, expression_call]
      refine .resolve name span fun function => ?_
      have sameParameters : function.pruned.parameters = function.parameters := rfl
      rw [sameParameters]
      by_cases fits : nodes.length = function.parameters.length
      · rw [if_pos fits, if_pos fits]
        exact argumentsFollow.bind fun values =>
          (Alteration.pruning limits).call sameParameters (entering function.body) span name values
      · rw [if_neg fits, if_neg fits]
        exact .fail _ _
  | .unary .. | .block .. | .conditional .. | .declaration .. | .giveBack .. | .program .. =>
      .fail _ _

theorem expressions_pruned (entering : EntersPruned limits enter enter') : ∀ nodes : List Node,
    FollowsPruned limits (expressions limits enter nodes) (expressions limits enter' nodes)
  | [] => .value []
  | node :: nodes =>
      (expression_pruned entering node).bind fun value =>
        (expressions_pruned entering nodes).bind fun values => .value (value :: values)

end

theorem formula_pruned (entering : EntersPruned limits enter enter') (node : Node) :
    FollowsPruned limits (expression limits enter node >>= fun value => pure (Completion.normal value))
      (expression limits enter' node >>= fun value => pure (Completion.normal value)) :=
  (expression_pruned limits entering node).bind fun value => .value (Completion.normal value)

theorem unary_pruned (entering : EntersPruned limits enter enter') (span : Span)
    (operator : Operator) (operand : Node) :
    FollowsPruned limits (unary limits enter span operator operand)
      (unary limits enter' span operator operand) := by
  by_cases printing : operator = .print
  · rw [printing, unary_print, unary_print]
    refine (expression_pruned limits entering operand).bind fun value => ?_
    exact printed_cases (motive := fun work => FollowsPruned limits work work) span value
      (fun _ => .fail _ _) fun text _ => (Alteration.pruning limits).print span text
  · simp only [unary, if_neg printing]
    exact .fail _ _

mutual

theorem statement_pruned (entering : EntersPruned limits enter enter') : ∀ node : Node,
    FollowsPruned limits (statement limits enter node) (statement limits enter' node.pruned)
  | .declaration _ name parameters body =>
      (FollowsPruned.define ⟨name, parameters, body⟩).bind fun _ =>
        .value (Completion.normal .nothing)
  | .giveBack _ value =>
      (expression_pruned limits entering value).bind fun result =>
        .value (Completion.mk result true)
  | .conditional _ condition body alternative => by
      have bodyFollows := optionalBlock_pruned entering body
      have alternativeFollows := otherwise_pruned entering alternative
      simp only [Node.pruned, statement]
      refine (expression_pruned limits entering condition).bind fun value => ?_
      match value.truth? with
      | some true => exact bodyFollows
      | some false => exact alternativeFollows
      | none => exact .fail _ _
  | .block body => block_pruned entering body
  | .unary span operator operand =>
      (unary_pruned limits entering span operator operand).bind fun _ =>
        .value (Completion.normal .nothing)
  | .number span value => formula_pruned limits entering (.number span value)
  | .string span raw => formula_pruned limits entering (.string span raw)
  | .reference span name => formula_pruned limits entering (.reference span name)
  | .binary span operator left right =>
      formula_pruned limits entering (.binary span operator left right)
  | .call span name nodes => formula_pruned limits entering (.call span name nodes)
  | .program span body => formula_pruned limits entering (.program span body)

theorem otherwise_pruned (entering : EntersPruned limits enter enter') : ∀ node : Option Node,
    FollowsPruned limits (otherwise limits enter node)
      (otherwise limits enter' (Node.prunedOption node))
  | none => .value (Completion.normal .nothing)
  | some node => statement_pruned entering node

theorem statements_pruned (entering : EntersPruned limits enter enter') (last : Completion) :
    ∀ nodes : List Node,
    FollowsPruned limits (statements limits enter last nodes)
      (statements limits enter' last (Node.prunedAll nodes))
  | [] => .value last
  | node :: nodes => by
      have statementFollows := statement_pruned entering node
      have behind := fun completion => statements_pruned entering completion nodes
      rw [Node.prunedAll, statements_cons, statements_cons, node.span_pruned]
      exact (Alteration.pruning limits).step node.span statementFollows behind

theorem block_pruned (entering : EntersPruned limits enter enter') : ∀ body : Block,
    FollowsPruned limits (block limits enter body) (block limits enter' body.pruned)
  | .mk _ nodes => by
      have follows := statements_pruned entering (.normal .nothing) nodes
      rw [← statements_upToReturn limits enter'] at follows
      exact follows

theorem optionalBlock_pruned (entering : EntersPruned limits enter enter') :
    ∀ body : Option Block,
    FollowsPruned limits (optionalBlock limits enter body)
      (optionalBlock limits enter' (Block.prunedOption body))
  | none => .value (Completion.normal .nothing)
  | some body => block_pruned entering body

end

theorem invoke_pruned (nesting : Nat) :
    EntersPruned limits (invoke limits nesting) (invoke limits nesting) := by
  induction nesting with
  | zero => exact fun _ => .stop .overflow
  | succ nesting inductionHypothesis => exact optionalBlock_pruned limits inductionHypothesis

end Trees

end Evaluation

open Evaluation

/-- The pruned program, started with pruned functions, tells how the program runs. -/
theorem Program.run_seen_pruned (program : Program) (environment : Environment) (setup : Setup) :
    let report := program.run environment setup
    program.pruned.run environment.pruned setup =
      { report with environment := report.environment.pruned } := by
  have seen := optionalBlock_pruned setup.limits
    (invoke_pruned setup.limits (setup.limits.nesting setup.capacity)) program.body
    (program.start environment setup)
  dsimp only
  rw [Program.run_eq, Program.run_eq]
  unfold Program.runWithin Program.result
  change Seen _ _ _ (optionalBlock _ _ program.pruned.body
    (program.pruned.start environment.pruned setup)) at seen
  generalize optionalBlock _ _ program.body _ = result at seen ⊢
  generalize optionalBlock _ _ program.pruned.body _ = result' at seen ⊢
  cases seen with
  | ok completion after => rfl
  | error halt after => rfl
  | exempt isExempt => exact isExempt.elim

/-- Statements behind a return are dead: without them a run is the same in all
that can be observed, and only the bodies of declared functions may differ, by
the same pruning. What is reported as unreachable is where each block is cut,
and behind that nothing is left to report. -/
theorem Program.run_pruned (program : Program) (environment : Environment) (setup : Setup)
    (known : Known) :
    let report := program.run environment setup
    let pruned := program.pruned.run environment setup
    pruned.outcome = report.outcome ∧ pruned.written = report.written ∧
      pruned.events = report.events ∧ pruned.steps = report.steps ∧
      pruned.deepest = report.deepest ∧
      pruned.environment.bindings = report.environment.bindings ∧
      pruned.environment.functions.map Function.pruned =
        report.environment.functions.map Function.pruned ∧
      Lint.withCode .unreachable (program.lint known) = Lint.unreachableIn program.cuts ∧
      Lint.withCode .unreachable (program.pruned.lint known) = [] := by
  intro report pruned
  -- Both runs are seen through one run of the pruned program with pruned functions.
  have seen : { pruned with environment := pruned.environment.pruned } =
      { report with environment := report.environment.pruned } := by
    have first := program.run_seen_pruned environment setup
    have second := program.pruned.run_seen_pruned environment setup
    rw [program.pruned_pruned] at second
    exact second.symm.trans first
  injection seen with sameOutcome sameEnvironment sameSteps sameDeepest sameWritten sameEvents
  injection sameEnvironment with sameBindings sameFunctions
  exact ⟨sameOutcome, sameWritten, sameEvents, sameSteps, sameDeepest, sameBindings, sameFunctions,
    program.unreachable_lint known, program.unreachable_lint_pruned known⟩

end Parlance
