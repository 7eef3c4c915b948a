import Parlance.Proofs.Erasure
import Parlance.Run.Evaluation

namespace Parlance

/-!
Runs that differ only in places. Two machines are alike when they agree in
everything but the places in declared functions and in recorded events; two
computations agree when they lead alike machines to alike machines, with the
same value or the same cause of a fault. Evaluation agrees with itself on trees
that have the same erased form.
-/

def Event.erased : Event → Event
  | .runStart _ => .runStart .blank
  | .runEnd _ steps deepest returned succeeded =>
    .runEnd .blank steps deepest returned succeeded
  | .statementStart _ => .statementStart .blank
  | .statementEnd _ => .statementEnd .blank
  | .callStart _ function depth => .callStart .blank function depth
  | .callEnd _ function depth => .callEnd .blank function depth
  | .print _ text => .print .blank text

/-- Why a run stopped, without the place. -/
def Halt.erased : Halt → Halt
  | .fault reason => .fault { reason with span := reason.span.map fun _ => .blank }
  | .overflow => .overflow

structure Machine.Alike (first second : Machine) : Prop where
  environment : first.environment.erased = second.environment.erased
  steps : first.steps = second.steps
  depth : first.depth = second.depth
  deepest : first.deepest = second.deepest
  signal : first.signal = second.signal
  cancelled : first.cancelled = second.cancelled
  outlet : first.outlet = second.outlet
  written : first.written = second.written
  events : first.events.map Event.erased = second.events.map Event.erased

namespace Machine.Alike

theorem refl (machine : Machine) : machine.Alike machine :=
  ⟨rfl, rfl, rfl, rfl, rfl, rfl, rfl, rfl, rfl⟩

theorem symm {first second : Machine} (alike : first.Alike second) : second.Alike first :=
  ⟨alike.environment.symm, alike.steps.symm, alike.depth.symm, alike.deepest.symm,
    alike.signal.symm, alike.cancelled.symm, alike.outlet.symm, alike.written.symm,
    alike.events.symm⟩

theorem trans {first second third : Machine} (alike : first.Alike second)
    (alike' : second.Alike third) : first.Alike third :=
  ⟨alike.environment.trans alike'.environment, alike.steps.trans alike'.steps,
    alike.depth.trans alike'.depth, alike.deepest.trans alike'.deepest,
    alike.signal.trans alike'.signal, alike.cancelled.trans alike'.cancelled,
    alike.outlet.trans alike'.outlet, alike.written.trans alike'.written, alike.events.trans alike'.events⟩

variable {first second : Machine} (alike : first.Alike second)
include alike

theorem function? (name : Text) :
    (first.environment.function? name).map Function.erased =
      (second.environment.function? name).map Function.erased := by
  rw [← Environment.function?_erased, alike.environment, Environment.function?_erased]

theorem called_deepest :
    max first.deepest (first.depth + 1) = max second.deepest (second.depth + 1) := by
  rw [alike.deepest, alike.depth]

/-- Calls of functions with the same parameters start on alike machines. -/
theorem called (span span' : Span) (name : Text) (arguments : List Value)
    {parameters parameters' : List Text} (same : parameters = parameters') :
    Machine.Alike
      { first with
        depth := first.depth + 1
        deepest := max first.deepest (first.depth + 1)
        environment := first.environment.bind parameters arguments
        events := .callStart span name (first.depth + 1) :: first.events }
      { second with
        depth := second.depth + 1
        deepest := max second.deepest (second.depth + 1)
        environment := second.environment.bind parameters' arguments
        events := .callStart span' name (second.depth + 1) :: second.events } where
  environment := by simp only [Environment.bind_erased, alike.environment, same]
  steps := alike.steps
  depth := by rw [alike.depth]
  deepest := alike.called_deepest
  signal := alike.signal
  cancelled := alike.cancelled
  outlet := alike.outlet
  written := alike.written
  events := by simp [Event.erased, alike.events, alike.depth]

/-- A call is left for the bindings of its caller. -/
theorem left {caller caller' : Machine} (outside : caller.Alike caller') (span span' : Span)
    (name : Text) :
    Machine.Alike
      { first with
        depth := first.depth - 1
        environment := caller.environment
        events := .callEnd span name first.depth :: first.events }
      { second with
        depth := second.depth - 1
        environment := caller'.environment
        events := .callEnd span' name second.depth :: second.events } where
  environment := outside.environment
  steps := alike.steps
  depth := by rw [alike.depth]
  deepest := alike.deepest
  signal := alike.signal
  cancelled := alike.cancelled
  outlet := alike.outlet
  written := alike.written
  events := by simp [Event.erased, alike.events, alike.depth]

end Machine.Alike

namespace Evaluation

variable {α β : Type}

/-- Two computations ended alike. -/
inductive Ends : EStateM.Result Halt Machine α → EStateM.Result Halt Machine α → Prop where
  | ok {value : α} {first second : Machine} (alike : first.Alike second) :
      Ends (.ok value first) (.ok value second)
  | error {halt other : Halt} {first second : Machine} (same : halt.erased = other.erased)
      (alike : first.Alike second) : Ends (.error halt first) (.error other second)

def Agree (first second : Eval α) : Prop :=
  ∀ ⦃machine other : Machine⦄, machine.Alike other → Ends (first machine) (second other)

namespace Agree

theorem symm {first second : Eval α} (agree : Agree first second) : Agree second first := by
  intro machine other alike
  match first other, second machine, agree alike.symm with
  | _, _, .ok alike' => exact .ok alike'.symm
  | _, _, .error same alike' => exact .error same.symm alike'.symm

theorem trans {first second third : Eval α} (agree : Agree first second)
    (agree' : Agree second third) : Agree first third := by
  intro machine other alike
  have behind := agree' (.refl other)
  match first machine, second other, third other, agree alike, behind with
  | _, _, _, .ok here, .ok there => exact .ok (here.trans there)
  | _, _, _, .error same here, .error same' there =>
      exact .error (same.trans same') (here.trans there)

theorem value (result : α) : Agree (pure result) (pure result) :=
  fun _ _ alike => .ok alike

theorem bind {first second : Eval α} {next next' : α → Eval β} (agree : Agree first second)
    (behind : ∀ result, Agree (next result) (next' result)) :
    Agree (first >>= next) (second >>= next') := by
  intro machine other alike
  change Ends (EStateM.bind first next machine) (EStateM.bind second next' other)
  unfold EStateM.bind
  match first machine, second other, agree alike with
  | _, _, .ok alike' => exact behind _ alike'
  | _, _, .error same alike' => exact .error same alike'

/-- What a computation makes of the machine it finds. -/
theorem observe {next next' : Machine → Eval α}
    (behind : ∀ ⦃machine other : Machine⦄, machine.Alike other →
      Ends (next machine machine) (next' other other)) :
    Agree (get >>= next) (get >>= next') :=
  fun _ _ alike => behind alike

theorem change {update update' : Machine → Machine}
    (step : ∀ ⦃machine other : Machine⦄, machine.Alike other →
      (update machine).Alike (update' other)) :
    Agree (modify update) (modify update') :=
  fun _ _ alike => .ok (step alike)

theorem stop {halt other : Halt} (same : halt.erased = other.erased) :
    Agree (throw halt : Eval α) (throw other) :=
  fun _ _ alike => .error same alike

/-- A fault has the same cause wherever it arises. -/
theorem fail (cause : Cause) (span span' : Span) :
    Agree (Machine.fail cause span : Eval α) (Machine.fail cause span') :=
  stop rfl

theorem record {event event' : Event} (same : event.erased = event'.erased) :
    Agree (Machine.record event) (Machine.record event') :=
  change fun _ _ alike => { alike with events := by simp [same, alike.events] }

theorem checkSignal (limits : Limits) :
    Agree (Machine.checkSignal limits) (Machine.checkSignal limits) := by
  refine observe fun machine other alike => ?_
  have same : machine.stop? limits = other.stop? limits := by
    rw [Machine.stop?, alike.signal, alike.steps, alike.cancelled, Machine.stop?]
  rw [same]
  cases other.stop? limits with
  | none => exact .ok alike
  | some cause => exact stop rfl alike

theorem countStep (limits : Limits) : Agree (Machine.countStep limits) (Machine.countStep limits) := by
  refine bind (change fun _ _ alike => { alike with steps := by simp [alike.steps] }) fun _ => ?_
  refine observe fun machine other alike => ?_
  rw [alike.steps]
  split
  · exact stop rfl alike
  · exact .ok alike

theorem write (span span' : Span) (text : Text) :
    Agree (Machine.write span text) (Machine.write span' text) := by
  refine observe fun machine other alike => ?_
  rw [alike.outlet]
  split
  · exact fail _ _ _ alike
  · exact .ok {
      alike with
      written := by rw [alike.written]
      outlet := rfl
      cancelled := by rw [alike.cancelled] }

theorem lookup (name : Text) (span span' : Span) :
    Agree (Machine.lookup name span) (Machine.lookup name span') := by
  refine observe fun machine other alike => ?_
  rw [← Environment.get?_erased, alike.environment, Environment.get?_erased]
  cases other.environment.get? name with
  | none => exact fail _ _ _ alike
  | some value => exact .ok alike

theorem assign (name : Text) (value : Value) :
    Agree (Machine.assign name value) (Machine.assign name value) :=
  change fun _ _ alike =>
    { alike with environment := congrArg (Environment.set · name value) alike.environment }

theorem define {function function' : Function} (same : function.erased = function'.erased) :
    Agree (Machine.define function) (Machine.define function') :=
  change fun _ _ alike =>
    { alike with environment := by simp only [Environment.define_erased, alike.environment, same] }

end Agree

/-- A way to run bodies that agrees on bodies with the same erased form. -/
def IgnoresPlaces (enter : Enter) : Prop :=
  ∀ ⦃body body' : Option Block⦄, Block.erasedOption body = Block.erasedOption body' →
    Agree (enter body) (enter body')

/-- A call leads back to the caller's bindings, so only its body matters. -/
theorem Agree.call (limits : Limits) {enter : Enter} (entering : IgnoresPlaces enter)
    (span span' : Span) {function function' : Function} (same : function.erased = function'.erased)
    (name : Text) (arguments : List Value) :
    Agree (Machine.call limits enter span function name arguments)
      (Machine.call limits enter span' function' name arguments) := by
  have sameParameters : function.parameters = function'.parameters :=
    congrArg (·.parameters) same
  have sameBody : Block.erasedOption function.body = Block.erasedOption function'.body :=
    congrArg (·.body) same
  intro machine other alike
  have inside := entering sameBody (alike.called span span' name arguments sameParameters)
  have allowed : limits.allowsDepth (machine.depth + 1) = limits.allowsDepth (other.depth + 1) := by
    rw [alike.depth]
  unfold Machine.call
  dsimp only
  rw [allowed]
  split
  · revert inside
    generalize enter _ _ = first
    generalize enter _ _ = second
    intro inside
    cases inside with
    | ok alike' => exact .ok (alike'.left alike span span' name)
    | error sameHalt alike' => exact .error sameHalt (alike'.left alike span span' name)
  · exact .error rfl { alike with deepest := alike.called_deepest }

section Trees

variable (limits : Limits) {enter : Enter}

mutual

theorem expression_agree (entering : IgnoresPlaces enter) : ∀ node : Node,
    Agree (expression limits enter node) (expression limits enter node.erased)
  | .number _ value => .value (Value.int value)
  | .string _ raw => .value (Value.str (unquoted raw))
  | .reference span name => .lookup name span .blank
  | .binary span operator left right => by
      have leftAgree := expression_agree entering left
      have rightAgree := expression_agree entering right
      simp only [Node.erased, expression]
      split
      · -- Only a reference is assigned to; the message about another node names its form.
        cases left with
        | reference _ name =>
            exact rightAgree.bind fun value => .bind (.assign name value) fun _ => .value value
        | _ => exact .fail ..
      · refine leftAgree.bind fun a => rightAgree.bind fun b => ?_
        cases operator.apply a b with
        | ok value => exact .value value
        | error cause => exact .fail ..
  | .call span name nodes => by
      have argumentsAgree := expressions_agree entering nodes
      simp only [Node.erased, expression, Node.erasedAll_length]
      refine .observe fun machine other alike => ?_
      have sameFunction := alike.function? name
      cases found : machine.environment.function? name with
      | none =>
          cases found' : other.environment.function? name with
          | none => exact Agree.fail _ _ _ alike
          | some function' => simp [found, found'] at sameFunction
      | some function =>
          cases found' : other.environment.function? name with
          | none => simp [found, found'] at sameFunction
          | some function' =>
              have same : function.erased = function'.erased := by
                simpa [found, found'] using sameFunction
              have sameParameters : function.parameters = function'.parameters :=
                congrArg (·.parameters) same
              simp only [sameParameters]
              split
              · exact argumentsAgree.bind
                  (fun values => .call limits entering span .blank same name values) alike
              · exact Agree.fail _ _ _ alike
  | .unary .. => .fail ..
  | .block .. => .fail ..
  | .conditional .. => .fail ..
  | .declaration .. => .fail ..
  | .giveBack .. => .fail ..
  | .program .. => .fail ..

theorem expressions_agree (entering : IgnoresPlaces enter) : ∀ nodes : List Node,
    Agree (expressions limits enter nodes) (expressions limits enter (Node.erasedAll nodes))
  | [] => .value []
  | node :: nodes =>
      .bind (expression_agree entering node) fun value =>
        .bind (expressions_agree entering nodes) fun values => .value (value :: values)

end

theorem unary_agree (entering : IgnoresPlaces enter) (span span' : Span) (operator : Operator)
    (operand : Node) :
    Agree (unary limits enter span operator operand)
      (unary limits enter span' operator operand.erased) := by
  unfold unary
  split
  · refine (expression_agree limits entering operand).bind fun value => ?_
    cases value.text? with
    | none => exact .fail ..
    | some text => exact .bind (.write ..) fun _ => .record rfl
  · exact .fail ..

mutual

theorem statement_agree (entering : IgnoresPlaces enter) : ∀ node : Node,
    Agree (statement limits enter node) (statement limits enter node.erased)
  | .declaration _ name parameters body =>
      .bind (.define (Function.erased_erased ⟨name, parameters, body⟩).symm) fun _ =>
        .value (Completion.normal .nothing)
  | .giveBack _ value =>
      .bind (expression_agree limits entering value) fun result =>
        .value (Completion.mk result true)
  | .conditional _ condition body alternative => by
      have bodyAgree := optionalBlock_agree entering body
      have alternativeAgree := otherwise_agree entering alternative
      simp only [Node.erased, statement]
      refine (expression_agree limits entering condition).bind fun value => ?_
      match value.truth? with
      | some true => exact bodyAgree
      | some false => exact alternativeAgree
      | none => exact .fail ..
  | .block body => block_agree entering body
  | .unary span operator operand =>
      .bind (unary_agree limits entering span .blank operator operand) fun _ =>
        .value (Completion.normal .nothing)
  | .number span value => (expression_agree limits entering (.number span value)).bind fun _ => .value _
  | .string span raw => (expression_agree limits entering (.string span raw)).bind fun _ => .value _
  | .reference span name =>
      (expression_agree limits entering (.reference span name)).bind fun _ => .value _
  | .binary span operator left right =>
      (expression_agree limits entering (.binary span operator left right)).bind fun _ => .value _
  | .call span name nodes =>
      (expression_agree limits entering (.call span name nodes)).bind fun _ => .value _
  | .program span body =>
      (expression_agree limits entering (.program span body)).bind fun _ => .value _

theorem otherwise_agree (entering : IgnoresPlaces enter) : ∀ node : Option Node,
    Agree (otherwise limits enter node) (otherwise limits enter (Node.erasedOption node))
  | none => .value (Completion.normal .nothing)
  | some node => statement_agree entering node

theorem statements_agree (entering : IgnoresPlaces enter) (last : Completion) :
    ∀ nodes : List Node,
    Agree (statements limits enter last nodes) (statements limits enter last (Node.erasedAll nodes))
  | [] => .value last
  | node :: nodes => by
      have statementAgree := statement_agree entering node
      have behind := fun completion => statements_agree entering completion nodes
      simp only [Node.erasedAll, statements]
      refine .bind (.checkSignal limits) fun _ => .bind (.countStep limits) fun _ =>
        .bind (.record rfl) fun _ => .bind statementAgree fun completion =>
        .bind (.record rfl) fun _ => ?_
      split
      · exact .value completion
      · exact behind completion

theorem block_agree (entering : IgnoresPlaces enter) : ∀ body : Block,
    Agree (block limits enter body) (block limits enter body.erased)
  | .mk _ nodes => statements_agree entering (.normal .nothing) nodes

theorem optionalBlock_agree (entering : IgnoresPlaces enter) : ∀ body : Option Block,
    Agree (optionalBlock limits enter body) (optionalBlock limits enter (Block.erasedOption body))
  | none => .value (Completion.normal .nothing)
  | some body => block_agree entering body

end

end Trees

theorem optionalBlock_ignoresPlaces (limits : Limits) {enter : Enter}
    (entering : IgnoresPlaces enter) : IgnoresPlaces (optionalBlock limits enter) := by
  intro body body' same
  have first := optionalBlock_agree limits entering body
  rw [same] at first
  exact first.trans (optionalBlock_agree limits entering body').symm

/-- However many calls may be open, running a body does not observe places. -/
theorem invoke_ignoresPlaces (limits : Limits) (nesting : Nat) :
    IgnoresPlaces (invoke limits nesting) := by
  induction nesting with
  | zero => exact fun _ _ _ => .stop rfl
  | succ nesting inductionHypothesis => exact optionalBlock_ignoresPlaces limits inductionHypothesis

end Evaluation

/-- Two reports that tell the same of a run except for places. -/
structure Report.Alike (first second : Report) : Prop where
  outcome : first.outcome.mapError Halt.erased = second.outcome.mapError Halt.erased
  environment : first.environment.erased = second.environment.erased
  steps : first.steps = second.steps
  deepest : first.deepest = second.deepest
  written : first.written = second.written
  events : first.events.map Event.erased = second.events.map Event.erased

theorem Report.Alike.symm {first second : Report} (alike : first.Alike second) :
    second.Alike first :=
  ⟨alike.outcome.symm, alike.environment.symm, alike.steps.symm, alike.deepest.symm,
    alike.written.symm, alike.events.symm⟩

/-- A run observes no place: neither in its program nor in the functions of its environment. -/
theorem Program.run_alike {program program' : Program} (samePrograms : program.erased = program'.erased)
    {environment environment' : Environment}
    (sameEnvironments : environment.erased = environment'.erased) (setup : Setup) :
    (program.run environment setup).Alike (program'.run environment' setup) := by
  have sameBody : Block.erasedOption program.body = Block.erasedOption program'.body :=
    congrArg (·.body) samePrograms
  have ignores := Evaluation.optionalBlock_ignoresPlaces setup.limits
    (Evaluation.invoke_ignoresPlaces setup.limits (setup.limits.nesting setup.capacity))
  have start : Machine.Alike
      ⟨environment, 0, 0, 0, setup.initialSignal, false, setup.outlet, [], [.runStart program.span]⟩
      ⟨environment', 0, 0, 0, setup.initialSignal, false, setup.outlet, [],
        [.runStart program'.span]⟩ :=
    ⟨sameEnvironments, rfl, rfl, rfl, rfl, rfl, rfl, rfl, rfl⟩
  have ended := ignores sameBody start
  unfold Program.run
  dsimp only
  revert ended
  generalize Evaluation.optionalBlock _ _ program.body _ = first
  generalize Evaluation.optionalBlock _ _ program'.body _ = second
  intro ended
  cases ended with
  | ok alike =>
      exact {
        outcome := rfl
        environment := alike.environment
        steps := alike.steps
        deepest := alike.deepest
        written := by simp only [alike.written]
        events := by simp [Event.erased, alike.events, alike.steps, alike.deepest] }
  | error same alike =>
      exact {
        outcome := congrArg Except.error same
        environment := alike.environment
        steps := alike.steps
        deepest := alike.deepest
        written := by simp only [alike.written]
        events := by
          simp [Event.erased, alike.events, alike.steps, alike.deepest, Except.isOk, Except.toBool] }

end Parlance
