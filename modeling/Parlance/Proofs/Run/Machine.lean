import Parlance.Run.Evaluation

namespace Parlance

/-!
What the operations on machines answer, case by case, and how a run is read
off the machine that its body leaves.
-/

namespace Limits

theorem allowsSteps_iff {limits : Limits} {count : Nat} :
    limits.allowsSteps count = true ↔ limits.steps ≤ 0 ∨ (count : Int) ≤ limits.steps := by
  simp [allowsSteps]

theorem allowsDepth_iff {limits : Limits} {depth : Nat} :
    limits.allowsDepth depth = true ↔ limits.callDepth ≤ 0 ∨ (depth : Int) ≤ limits.callDepth := by
  simp [allowsDepth]

end Limits

/-- Limits without a time differ in nothing that interrupts a run. -/
theorem Interruption.cause?_of_untimed {limits limits' : Limits} (untimed : limits.time ≤ 0)
    (untimed' : limits'.time ≤ 0) (interruption : Interruption) :
    interruption.cause? limits' = interruption.cause? limits := by
  have inTime : ¬ 0 < limits.time := by omega
  have inTime' : ¬ 0 < limits'.time := by omega
  cases interruption with
  | cancelled => rfl
  | deadline => rfl
  | elapsed => rw [cause?, cause?, if_neg inTime, if_neg inTime']

theorem Interruption.code_of_cause? {limits : Limits} {interruption : Interruption} {cause : Cause}
    (caused : interruption.cause? limits = some cause) :
    cause.code = .cancelled ∨ cause.code = .budget := by
  cases interruption with
  | cancelled =>
      cases caused
      exact .inl rfl
  | deadline =>
      cases caused
      exact .inr rfl
  | elapsed =>
      rw [cause?] at caused
      split at caused
      · cases caused
        exact .inr rfl
      · cases caused

namespace Signal

theorem cause?_congr {limits limits' : Limits} {signal signal' : Signal} {poll poll' : Nat}
    (asked : signal'.interruption? poll' = signal.interruption? poll)
    (caused : ∀ interruption : Interruption, interruption.cause? limits' = interruption.cause? limits)
    (cancelled : Bool) :
    signal'.cause? limits' poll' cancelled = signal.cause? limits poll cancelled := by
  unfold cause?
  rw [asked, funext caused]

end Signal

namespace Evaluation

section Results

variable {α β : Type} {first : Eval α} {next : α → Eval β} {machine after : Machine}

/-- The machine that a computation leaves, also when it stops early. -/
def final : EStateM.Result Halt Machine α → Machine
  | .ok _ machine => machine
  | .error _ machine => machine

theorem bind_of_ok {result : α} (ended : first machine = .ok result after) :
    (first >>= next) machine = next result after := by
  change EStateM.bind first next machine = _
  rw [EStateM.bind, ended]

theorem bind_of_error {halt : Halt} (ended : first machine = .error halt after) :
    (first >>= next) machine = .error halt after := by
  change EStateM.bind first next machine = _
  rw [EStateM.bind, ended]

theorem bind_get (next : Machine → Eval α) (machine : Machine) :
    (get >>= next) machine = next machine machine := rfl

end Results

end Evaluation

namespace Machine

def stepped (machine : Machine) : Machine :=
  { machine with steps := machine.steps + 1 }

def recorded (machine : Machine) (event : Event) : Machine :=
  { machine with events := event :: machine.events }

/-- The machine on which a statement is carried out. -/
def started (machine : Machine) (span : Span) : Machine :=
  machine.stepped.recorded (.statementStart span)

def wrote (machine : Machine) (line : Text) : Machine :=
  { machine with
    written := line :: machine.written
    outlet := afterWrite machine.outlet
    cancelled := machine.cancelled || machine.outlet.cancelIn == some 1 }

/-- The machine on which the body of a called function starts. -/
def entered (machine : Machine) (span : Span) (function : Function) (name : Text)
    (arguments : List Value) : Machine :=
  { machine with
    depth := machine.depth + 1
    deepest := max machine.deepest (machine.depth + 1)
    environment := machine.environment.bind function.parameters arguments
    events := .callStart span name (machine.depth + 1) :: machine.events }

/-- Where the caller goes on, from the machine that the body left. -/
def left (caller : Machine) (span : Span) (name : Text) (after : Machine) : Machine :=
  { after with
    depth := after.depth - 1
    environment := caller.environment
    events := .callEnd span name after.depth :: after.events }

def returned (caller : Machine) (span : Span) (name : Text) :
    EStateM.Result Halt Machine Completion → EStateM.Result Halt Machine Value
  | .ok completion after => .ok completion.value (caller.left span name after)
  | .error halt after => .error halt (caller.left span name after)

variable {limits : Limits} {machine : Machine}

theorem record_eq (event : Event) (machine : Machine) :
    record event machine = .ok () (machine.recorded event) := rfl

theorem cancelled_of_live (live : machine.stop? limits = none) : machine.cancelled = false := by
  cases cancelled : machine.cancelled with
  | false => rfl
  | true =>
      rw [stop?, cancelled, Signal.cause?] at live
      split at live <;> cases live

/-- A poll stops a run for its context or for its budget. -/
theorem code_of_stopped {cause : Cause} (stopped : machine.stop? limits = some cause) :
    cause.code = .cancelled ∨ cause.code = .budget := by
  rw [stop?, Signal.cause?] at stopped
  split at stopped
  · cases stopped
    exact .inr rfl
  · split at stopped
    · cases stopped
      exact .inl rfl
    · obtain ⟨interruption, _, caused⟩ := Option.bind_eq_some_iff.mp stopped
      exact Interruption.code_of_cause? caused

theorem checkSignal_of_live (live : machine.stop? limits = none) :
    checkSignal limits machine = .ok () machine := by
  unfold checkSignal
  rw [Evaluation.bind_get, live]
  rfl

theorem checkSignal_of_stopped {cause : Cause} (stopped : machine.stop? limits = some cause) :
    checkSignal limits machine = .error (.fault ⟨cause, none⟩) machine := by
  unfold checkSignal
  rw [Evaluation.bind_get, stopped]
  rfl

theorem countStep_of_allowed (allowed : limits.allowsSteps (machine.steps + 1) = true) :
    countStep limits machine = .ok () machine.stepped := by
  change (if (!limits.allowsSteps (machine.steps + 1)) = true then _ else _ : Eval Unit) _ = _
  rw [allowed]
  rfl

theorem countStep_of_refused (refused : limits.allowsSteps (machine.steps + 1) = false) :
    countStep limits machine = .error (.fault ⟨.stepBudget limits.steps, none⟩) machine.stepped := by
  change (if (!limits.allowsSteps (machine.steps + 1)) = true then _ else _ : Eval Unit) _ = _
  rw [refused]
  rfl

theorem write_of_room (span : Span) (text : Text) (room : machine.outlet.room ≠ some 0) :
    write span text machine = .ok () (machine.wrote (text ++ [Text.newline])) := by
  change (if machine.outlet.room = some 0 then _ else _ : Eval Unit) _ = _
  rw [if_neg room]
  rfl

theorem write_of_full (span : Span) (text : Text) (full : machine.outlet.room = some 0) :
    write span text machine =
      .error (.fault ⟨.writing machine.outlet.refusal, some span⟩) machine := by
  change (if machine.outlet.room = some 0 then _ else _ : Eval Unit) _ = _
  rw [if_pos full]
  rfl

theorem lookup_of_some {name : Text} {value : Value} (span : Span)
    (found : machine.environment.get? name = some value) :
    lookup name span machine = .ok value machine := by
  unfold lookup
  rw [Evaluation.bind_get, found]
  rfl

theorem lookup_of_none {name : Text} (span : Span) (missing : machine.environment.get? name = none) :
    lookup name span machine = .error (.fault ⟨.undefinedVariable name, some span⟩) machine := by
  unfold lookup
  rw [Evaluation.bind_get, missing]
  rfl

section Call

variable (enter : Option Block → Eval Completion) (span : Span) (function : Function) (name : Text)
  (arguments : List Value)

theorem call_of_allowed (allowed : limits.allowsDepth (machine.depth + 1) = true) :
    call limits enter span function name arguments machine =
      machine.returned span name
        (enter function.body (machine.entered span function name arguments)) := by
  unfold call
  dsimp only
  rw [if_pos allowed]
  change (match enter function.body (machine.entered span function name arguments) with
    | .ok completion after => _
    | .error halt after => _) = _
  cases enter function.body (machine.entered span function name arguments) <;> rfl

theorem call_of_refused (refused : limits.allowsDepth (machine.depth + 1) = false) :
    call limits enter span function name arguments machine =
      .error (.fault ⟨.depthBudget limits.callDepth, some span⟩)
        { machine with deepest := max machine.deepest (machine.depth + 1) } := by
  unfold call
  dsimp only
  rw [refused]
  rfl

end Call

end Machine

theorem Setup.initialSignal_of_untimed {setup : Setup} (untimed : setup.limits.time ≤ 0) :
    setup.initialSignal = setup.signal := by
  have inTime : ¬ 0 < setup.limits.time := by omega
  simp [initialSignal, Limits.isOverAtOnce, inTime]

/-- The machine on which the body of a program starts. -/
def Program.start (program : Program) (environment : Environment) (setup : Setup) : Machine where
  environment := environment
  steps := 0
  depth := 0
  deepest := 0
  signal := setup.initialSignal
  cancelled := false
  outlet := setup.outlet
  written := []
  events := [.runStart program.span]

def Report.of (span : Span) : EStateM.Result Halt Machine Completion → Report
  | .ok completion after =>
    let ending := Event.runEnd span after.steps after.deepest completion.returning true
    ⟨.ok completion, after.environment, after.steps, after.deepest, after.written.reverse,
      (ending :: after.events).reverse⟩
  | .error halt after =>
    let ending := Event.runEnd span after.steps after.deepest false false
    ⟨.error halt, after.environment, after.steps, after.deepest, after.written.reverse,
      (ending :: after.events).reverse⟩

/-- The body of a program, run with room for a number of calls inside each other. -/
def Program.result (program : Program) (limits : Limits) (nesting : Nat) (machine : Machine) :
    EStateM.Result Halt Machine Completion :=
  Evaluation.optionalBlock limits (Evaluation.invoke limits nesting) program.body machine

def Program.runWithin (nesting : Nat) (program : Program) (environment : Environment)
    (setup : Setup) : Report :=
  .of program.span (program.result setup.limits nesting (program.start environment setup))

theorem Program.run_eq (program : Program) (environment : Environment) (setup : Setup) :
    program.run environment setup =
      program.runWithin (setup.limits.nesting setup.capacity) environment setup := by
  unfold Program.run Program.runWithin Program.result Program.start
  dsimp only
  generalize Evaluation.optionalBlock _ _ _ _ = result
  cases result <;> rfl

section Reports

variable (span : Span) (result : EStateM.Result Halt Machine Completion)

theorem Report.of_environment :
    (Report.of span result).environment = (Evaluation.final result).environment := by
  cases result <;> rfl

theorem Report.of_steps : (Report.of span result).steps = (Evaluation.final result).steps := by
  cases result <;> rfl

theorem Report.of_deepest : (Report.of span result).deepest = (Evaluation.final result).deepest := by
  cases result <;> rfl

theorem Report.of_written :
    (Report.of span result).written = (Evaluation.final result).written.reverse := by
  cases result <;> rfl

end Reports

theorem Report.of_outcome_ok {span : Span} {result : EStateM.Result Halt Machine Completion}
    {completion : Completion} (succeeded : (Report.of span result).outcome = .ok completion) :
    ∃ after, result = .ok completion after := by
  cases result with
  | ok other after => exact ⟨after, by rw [Except.ok.inj succeeded]⟩
  | error halt after => cases succeeded

end Parlance
