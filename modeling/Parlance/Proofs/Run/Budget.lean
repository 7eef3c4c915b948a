import Parlance.Proofs.Run.Termination

namespace Parlance

/-!
Limits are transparent until they are hit. A limited evaluation goes along with
the unlimited one up to the step or the call that a limit forbids. The counters
of the unlimited evaluation never go back, so their last values tell whether
there is such a step or call.
-/

namespace Limits

/-- Every limit is at least as large as before, or there is none any more. -/
structure Relaxes (limits larger : Limits) : Prop where
  steps : larger.steps ≤ 0 ∨ 0 < limits.steps ∧ limits.steps ≤ larger.steps
  callDepth : larger.callDepth ≤ 0 ∨ 0 < limits.callDepth ∧ limits.callDepth ≤ larger.callDepth

/-- The counters of a machine are within the limits. -/
structure Allows (limits : Limits) (machine : Machine) : Prop where
  steps : limits.allowsSteps machine.steps = true
  deepest : limits.allowsDepth machine.deepest = true

theorem Allows.before {limits : Limits} {machine after : Machine} (allows : limits.Allows after)
    (continues : machine.Continues after) : limits.Allows machine := by
  have steps := allowsSteps_iff.mp allows.steps
  have deepest := allowsDepth_iff.mp allows.deepest
  have lessSteps := continues.steps
  have lessDeep := continues.deepest
  exact ⟨allowsSteps_iff.mpr (by omega), allowsDepth_iff.mpr (by omega)⟩

theorem Allows.entered {limits : Limits} {machine : Machine} (allows : limits.Allows machine)
    (allowed : limits.allowsDepth (machine.depth + 1) = true) (span : Span) (function : Function)
    (name : Text) (arguments : List Value) :
    limits.Allows (machine.entered span function name arguments) := by
  have deepest := allowsDepth_iff.mp allows.deepest
  have allowed' := allowsDepth_iff.mp allowed
  exact ⟨allows.steps, allowsDepth_iff.mpr (by simp only [Machine.entered]; omega)⟩

theorem Relaxes.allowsSteps {limits larger : Limits} (relaxes : limits.Relaxes larger) (count : Nat)
    (allowed : limits.allowsSteps count = true) : larger.allowsSteps count = true := by
  have steps := relaxes.steps
  have counted := allowsSteps_iff.mp allowed
  exact allowsSteps_iff.mpr (by omega)

theorem Relaxes.allowsDepth {limits larger : Limits} (relaxes : limits.Relaxes larger) (depth : Nat)
    (allowed : limits.allowsDepth depth = true) : larger.allowsDepth depth = true := by
  have callDepth := relaxes.callDepth
  have reached := allowsDepth_iff.mp allowed
  exact allowsDepth_iff.mpr (by omega)

theorem nesting_of_unbounded {limits : Limits}
    (unbounded : ¬ (0 < limits.callDepth ∨ 0 < limits.steps)) (capacity : Nat) :
    limits.nesting capacity = capacity := by
  unfold nesting
  rw [if_neg (fun limited => unbounded (.inl limited)),
    if_neg (fun limited => unbounded (.inr limited))]

theorem none_allowsSteps (count : Nat) : none.allowsSteps count = true := rfl

theorem none_allowsDepth (depth : Nat) : none.allowsDepth depth = true := rfl

end Limits

namespace Evaluation

variable {α β : Type} {limits : Limits}

/-- What limits make of a result: they leave it as it is if its counters are
within them, and otherwise the run stops before with some of the lines. -/
inductive Limited (limits : Limits) :
    EStateM.Result Halt Machine α → EStateM.Result Halt Machine α → Prop where
  | same (result : EStateM.Result Halt Machine α) (allows : limits.Allows (final result)) :
      Limited limits result result
  | exceeded {result : EStateM.Result Halt Machine α} (beyond : ¬ limits.Allows (final result))
      {reason : Fault} (budget : reason.code = .budget) {after : Machine}
      (earlier : after.written <:+ (final result).written) :
      Limited limits result (.error (.fault reason) after)
  | overflow (after : Machine) (other : EStateM.Result Halt Machine α) :
      Limited limits (.error .overflow after) other

structure Transparent (limits : Limits) (free limited : Eval α) : Prop where
  continuing : Continuing free
  limited {machine : Machine} :
    limits.Allows machine → Limited limits (free machine) (limited machine)

namespace Transparent

theorem bind {free limited : Eval α} {next next' : α → Eval β}
    (transparent : Transparent limits free limited)
    (behind : ∀ result, Transparent limits (next result) (next' result)) :
    Transparent limits (free >>= next) (limited >>= next') where
  continuing := .bind transparent.continuing fun result => (behind result).continuing
  limited {machine} allows := by
    have start := transparent.limited allows
    generalize ended : free machine = result at start
    generalize ended' : limited machine = result' at start
    cases start with
    | same _ allows' =>
        cases result with
        | ok value after =>
            rw [bind_of_ok ended, bind_of_ok ended']
            exact (behind value).limited allows'
        | error halt after =>
            rw [bind_of_error ended, bind_of_error ended']
            exact .same _ allows'
    | exceeded beyond budget earlier =>
        -- The limited side has stopped; the free side may go on, but not back within the limits.
        rw [bind_of_error ended']
        cases result with
        | ok value after =>
            rw [bind_of_ok ended]
            have continues := (behind value).continuing after
            exact .exceeded (fun allows' => beyond (allows'.before continues)) budget
              (earlier.trans continues.written_suffix)
        | error halt after =>
            rw [bind_of_error ended]
            refine .exceeded ?_ budget ?_
            · exact beyond
            · exact earlier
    | overflow after other =>
        rw [bind_of_error ended]
        exact .overflow after _

theorem steady {work : Eval α} (steady : Steady work) : Transparent limits work work where
  continuing := steady.continuing
  limited {machine} allows := by
    have settled := steady machine
    refine .same _ ⟨?_, ?_⟩
    · rw [settled.steps]
      exact allows.steps
    · rw [settled.deepest]
      exact allows.deepest

theorem checkSignal (untimed : limits.time ≤ 0) :
    Transparent limits (Machine.checkSignal .none) (Machine.checkSignal limits) := by
  have same (machine : Machine) : machine.stop? limits = machine.stop? .none :=
    Signal.cause?_congr rfl (Interruption.cause?_of_untimed (by decide) untimed) machine.cancelled
  have same' : Machine.checkSignal limits = Machine.checkSignal .none := by
    unfold Machine.checkSignal
    simp only [same]
  rw [same']
  exact steady (.checkSignal .none)

theorem countStep : Transparent limits (Machine.countStep .none) (Machine.countStep limits) where
  continuing := .countStep .none
  limited {machine} allows := by
    rw [Machine.countStep_of_allowed (Limits.none_allowsSteps _)]
    cases allowed : limits.allowsSteps (machine.steps + 1) with
    | true =>
        rw [Machine.countStep_of_allowed allowed]
        exact .same _ ⟨allowed, allows.deepest⟩
    | false =>
        rw [Machine.countStep_of_refused allowed]
        refine .exceeded (fun allows' => ?_) rfl (List.suffix_refl _)
        have counted : limits.allowsSteps (machine.steps + 1) = true := allows'.steps
        rw [allowed] at counted
        contradiction

theorem resolve (name : Text) (span : Span) {use use' : Function → Eval α}
    (behind : ∀ function, Transparent limits (use function) (use' function)) :
    Transparent limits (resolve name span use) (resolve name span use') where
  continuing := .resolve name span fun function => (behind function).continuing
  limited {machine} allows := by
    cases found : machine.environment.function? name with
    | some function =>
        rw [resolve_of_some span use found, resolve_of_some span use' found]
        exact (behind function).limited allows
    | none =>
        rw [resolve_of_none span use found, resolve_of_none span use' found]
        exact .same _ allows

theorem call {enter enter' : Enter}
    (entering : ∀ body, Transparent limits (enter body) (enter' body)) (span : Span)
    (function : Function) (name : Text) (arguments : List Value) :
    Transparent limits (Machine.call .none enter span function name arguments)
      (Machine.call limits enter' span function name arguments) where
  continuing := .call .none (fun body => (entering body).continuing) span function name arguments
  limited {machine} allows := by
    rw [Machine.call_of_allowed enter span function name arguments (Limits.none_allowsDepth _)]
    have inside := entering function.body
    cases allowed : limits.allowsDepth (machine.depth + 1) with
    | true =>
        rw [Machine.call_of_allowed enter' span function name arguments allowed]
        have ended := inside.limited (allows.entered allowed span function name arguments)
        generalize enter function.body _ = result at ended ⊢
        generalize enter' function.body _ = result' at ended ⊢
        cases ended with
        | same _ allows' =>
            cases result with
            | ok completion after => exact .same _ ⟨allows'.steps, allows'.deepest⟩
            | error halt after => exact .same _ ⟨allows'.steps, allows'.deepest⟩
        | exceeded beyond budget earlier =>
            have beyond' (allows' : limits.Allows (final (machine.returned span name result))) :
                False := by
              cases result <;> exact beyond ⟨allows'.steps, allows'.deepest⟩
            refine .exceeded beyond' budget ?_
            cases result <;> exact earlier
        | overflow after other => exact .overflow _ _
    | false =>
        rw [Machine.call_of_refused enter' span function name arguments allowed]
        -- The free side makes the call, and the depth it has then reached is never taken back.
        have continues := inside.continuing (machine.entered span function name arguments)
        generalize enter function.body _ = result at continues ⊢
        have deeper : machine.depth + 1 ≤ (final result).deepest :=
          Nat.le_trans (Nat.le_max_right ..) continues.deepest
        have beyond (allows' : limits.allowsDepth (final result).deepest = true) : False := by
          have reached := Limits.allowsDepth_iff.mp allows'
          have short : limits.allowsDepth (machine.depth + 1) = true :=
            Limits.allowsDepth_iff.mpr (by omega)
          rw [allowed] at short
          contradiction
        refine .exceeded (fun allows' => ?_) rfl ?_
        · cases result <;> exact beyond allows'.deepest
        · cases result <;> exact continues.written_suffix

end Transparent

theorem transparent_corresponds (untimed : limits.time ≤ 0) {enter enter' : Enter}
    (entering : ∀ body, Transparent limits (enter body) (enter' body)) :
    Corresponds .none limits enter enter' (fun _ => Transparent limits) (Transparent limits) where
  value result := .steady (.value result)
  bind := .bind
  fail cause span := .steady (.fail cause span)
  lookup name span := .steady (.lookup name span)
  resolve name span _ _ := .resolve name span
  assign name value := .steady (.assign name value)
  define function := .steady (.define function)
  print span text := .steady (.print span text)
  call := .call entering
  branch := id
  finish completion := .steady (.value completion)
  step span work work' next next' transparent behind := by
    refine .bind (.checkSignal untimed) fun _ => .bind .countStep fun _ =>
      .bind (.steady (.record _)) fun _ => .bind transparent fun completion =>
      .bind (.steady (.record _)) fun _ => ?_
    split
    · exact .steady (.value completion)
    · exact behind completion

theorem invoke_transparent (untimed : limits.time ≤ 0) (nesting : Nat) (body : Option Block) :
    Transparent limits (invoke .none nesting body) (invoke limits nesting body) := by
  induction nesting generalizing body with
  | zero => exact ⟨invoke_continuing .none 0 body, fun _ => .overflow _ _⟩
  | succ nesting inductionHypothesis =>
      exact (transparent_corresponds untimed inductionHypothesis).ofOptionalBlock body

end Evaluation

open Evaluation

namespace Program

theorem start_of_untimed (program : Program) (environment : Environment) (setup : Setup)
    {limits : Limits} (untimed : limits.time ≤ 0) (capacity : Nat) :
    program.start environment { setup with limits, capacity } =
      program.start environment { setup with limits := .none } := by
  have untimed' : Limits.none.time ≤ 0 := by decide
  unfold start
  rw [Setup.initialSignal_of_untimed untimed, Setup.initialSignal_of_untimed untimed']

theorem start_allows (program : Program) (environment : Environment) (setup : Setup)
    (limits : Limits) : limits.Allows (program.start environment setup) := by
  refine ⟨Limits.allowsSteps_iff.mpr ?_, Limits.allowsDepth_iff.mpr ?_⟩
  · simp only [start]
    omega
  · simp only [start]
    omega

/-- With as much room on both sides, limits make of a free run what they make of any result. -/
theorem result_limited (program : Program) {limits : Limits} (untimed : limits.time ≤ 0)
    (nesting : Nat) {machine : Machine} (allows : limits.Allows machine) :
    Limited limits (program.result .none nesting machine) (program.result limits nesting machine) :=
  ((transparent_corresponds untimed (invoke_transparent untimed nesting)).ofOptionalBlock
    program.body).limited allows

/-- Some room is enough for the limited run and for a free run that ended. -/
theorem exists_room (program : Program) (environment : Environment) (setup : Setup)
    (ended : ∀ after, program.result .none setup.capacity (program.start environment setup) ≠
      .error .overflow after) :
    ∃ nesting, program.result .none nesting (program.start environment setup) =
        program.result .none setup.capacity (program.start environment setup) ∧
      program.result setup.limits nesting (program.start environment setup) =
        program.result setup.limits (setup.limits.nesting setup.capacity)
          (program.start environment setup) := by
  by_cases bounded : 0 < setup.limits.callDepth ∨ 0 < setup.limits.steps
  · refine ⟨max setup.capacity (setup.limits.nesting setup.capacity), ?_, ?_⟩
    · exact program.result_more .none (Nat.le_max_left ..) ended
    · exact program.result_more_of_bounded environment setup bounded (Nat.le_max_right ..)
  · exact ⟨setup.capacity, rfl, by rw [Limits.nesting_of_unbounded bounded]⟩

/-- Within the limits a run is the free run, and beyond them it stops with a fault of the budget
after some of the lines of the free run. -/
theorem run_limited (program : Program) (environment : Environment) (setup : Setup)
    {limits : Limits} (untimed : limits.time ≤ 0)
    (ended : (program.run environment { setup with limits := .none }).outcome ≠ .error .overflow) :
    let free := program.run environment { setup with limits := .none }
    let limited := program.run environment { setup with limits }
    ((limits.allowsSteps free.steps = true ∧ limits.allowsDepth free.deepest = true) ∧
        limited = free) ∨
      (¬ (limits.allowsSteps free.steps = true ∧ limits.allowsDepth free.deepest = true) ∧
        (∃ reason, limited.outcome = .error (.fault reason) ∧ reason.code = .budget) ∧
        limited.written <+: free.written) := by
  intro free limited
  have sameStart := program.start_of_untimed environment setup untimed setup.capacity
  have settled : ∀ after, program.result .none setup.capacity
      (program.start environment { setup with limits }) ≠ .error .overflow after := by
    intro after overflows
    apply ended
    rw [run_eq, runWithin, ← sameStart]
    change (Report.of _ (program.result .none setup.capacity _)).outcome = _
    rw [overflows]
    rfl
  obtain ⟨nesting, freeRoom, limitedRoom⟩ :=
    program.exists_room environment { setup with limits } settled
  have sameFree : free = .of program.span (program.result .none nesting
      (program.start environment { setup with limits })) := by
    rw [freeRoom, sameStart]
    exact program.run_eq environment { setup with limits := .none }
  have sameLimited : limited = .of program.span (program.result limits nesting
      (program.start environment { setup with limits })) := by
    rw [limitedRoom]
    exact program.run_eq environment { setup with limits }
  have made := program.result_limited untimed nesting
    (program.start_allows environment { setup with limits } limits)
  rw [sameFree, sameLimited, Report.of_steps, Report.of_deepest, Report.of_written,
    Report.of_written]
  generalize program.result .none nesting _ = result at made settled freeRoom ⊢
  generalize program.result limits nesting _ = result' at made ⊢
  cases made with
  | same _ allows => exact .inl ⟨⟨allows.steps, allows.deepest⟩, rfl⟩
  | exceeded beyond budget earlier =>
      refine .inr ⟨fun within => beyond ⟨within.1, within.2⟩, ⟨_, rfl, budget⟩, ?_⟩
      exact List.reverse_prefix.mpr earlier
  | overflow after other => exact absurd freeRoom.symm (settled after)

theorem result_relaxed (program : Program) {limits larger : Limits} (untimed : limits.time ≤ 0)
    (untimed' : larger.time ≤ 0) (relaxes : limits.Relaxes larger) {nesting nesting' : Nat} (more : nesting ≤ nesting') {machine after : Machine}
    {completion : Completion} (ended : program.result limits nesting machine = .ok completion after) :
    program.result larger nesting' machine = .ok completion after := by
  let relaxing : Translation limits larger (fun _ => True) :=
    .relaxing relaxes.allowsSteps relaxes.allowsDepth
      (Interruption.cause?_of_untimed untimed untimed') (.inr fun _ _ => trivial)
  have seen := relaxing.result program (.inr ⟨trivial, more⟩) machine
  rw [ended] at seen
  exact seen.eq fun _ _ => nofun

theorem run_relaxed (program : Program) (environment : Environment) (setup : Setup)
    {limits larger : Limits} (untimed : limits.time ≤ 0) (untimed' : larger.time ≤ 0)
    (relaxes : limits.Relaxes larger) {completion : Completion}
    (succeeded : (program.run environment { setup with limits }).outcome = .ok completion)
    {capacity : Nat} (enough : limits.nesting setup.capacity ≤ capacity) :
    program.run environment { setup with limits := larger, capacity } =
      program.run environment { setup with limits } := by
  have sameStart := program.start_of_untimed environment setup untimed setup.capacity
  have sameStart' := program.start_of_untimed environment setup untimed' capacity
  rw [run_eq, runWithin] at succeeded
  obtain ⟨after, ended⟩ := Report.of_outcome_ok succeeded
  have largerEnded : program.result larger (larger.nesting capacity)
      (program.start environment { setup with limits := larger, capacity }) =
        .ok completion after := by
    by_cases bounded : 0 < larger.callDepth ∨ 0 < larger.steps
    · have room := program.result_more_of_bounded environment
        { setup with limits := larger, capacity } bounded
        (Nat.le_max_right (limits.nesting setup.capacity) _)
      rw [← room, sameStart', ← sameStart]
      exact program.result_relaxed untimed untimed' relaxes (Nat.le_max_left ..) ended
    · rw [Limits.nesting_of_unbounded bounded, sameStart', ← sameStart]
      exact program.result_relaxed untimed untimed' relaxes enough ended
  rw [run_eq, run_eq, runWithin, runWithin, ended]
  dsimp only
  rw [largerEnded]

/-- Limits do not show until they are hit. A program whose free run ends is run the same way under
every limit that the steps and the depth of the free run keep to; under any other it fails for the
budget, and what it printed is the beginning of what the free run prints. So larger limits never
change a run that succeeded. -/
theorem run_budget :
    (∀ (program : Program) (environment : Environment) (setup : Setup) (limits : Limits),
      limits.time ≤ 0 →
      let free := program.run environment { setup with limits := .none }
      let limited := program.run environment { setup with limits }
      free.outcome ≠ .error .overflow →
      let within := (limits.steps ≤ 0 ∨ (free.steps : Int) ≤ limits.steps) ∧
        (limits.callDepth ≤ 0 ∨ (free.deepest : Int) ≤ limits.callDepth)
      (within → limited = free) ∧
      (¬ within → (∃ reason, limited.outcome = .error (.fault reason) ∧ reason.code = .budget) ∧
        limited.output <+: free.output)) ∧
    ∀ (program : Program) (environment : Environment) (setup : Setup) (limits larger : Limits),
      limits.time ≤ 0 → larger.time ≤ 0 → limits.Relaxes larger →
      ∀ completion, (program.run environment { setup with limits }).outcome = .ok completion →
        ∃ enough, ∀ capacity, enough ≤ capacity →
          program.run environment { setup with limits := larger, capacity } =
            program.run environment { setup with limits } := by
  refine ⟨?_, ?_⟩
  · intro program environment setup limits untimed free limited ended within
    have same : (limits.allowsSteps free.steps = true ∧ limits.allowsDepth free.deepest = true) ↔
        within := by
      rw [Limits.allowsSteps_iff, Limits.allowsDepth_iff]
    have made := program.run_limited environment setup untimed ended
    dsimp only at made
    rw [same] at made
    rcases made with ⟨isWithin, equal⟩ | ⟨beyond, stopped, lines⟩
    · exact ⟨fun _ => equal, fun beyond => absurd isWithin beyond⟩
    · refine ⟨fun isWithin => absurd isWithin beyond, fun _ => ⟨stopped, ?_⟩⟩
      obtain ⟨rest, whole⟩ := lines
      refine ⟨rest.flatten, ?_⟩
      rw [Report.output, Report.output, ← whole, List.flatten_append]
  · intro program environment setup limits larger untimed untimed' relaxes completion succeeded
    refine ⟨limits.nesting setup.capacity, fun capacity enough => ?_⟩
    exact program.run_relaxed environment setup untimed untimed' relaxes succeeded enough

/-- A function that prints its argument and calls itself once more. One open call is too few, and
the run stops between the two lines; two are enough. -/
theorem run_budget_recursive :
    let n : Node := .reference .blank (utf8 "n")
    let call (argument : Node) : Node := .call .blank (utf8 "f") [argument]
    let program : Program := ⟨.blank, some (.mk .blank [
      .declaration .blank (utf8 "f") [utf8 "n"] (some (.mk .blank [
        .unary .blank .print n,
        .conditional .blank n (some (.mk .blank [
          .giveBack .blank (call (.binary .blank .subtract n (.number .blank 1)))])) none])),
      call (.number .blank 1)])⟩
    let run (limits : Limits) (capacity : Nat) : Report :=
      program.run .empty { Setup.standard .none with limits, capacity }
    (run .none 100000).output = utf8 "1\n0\n" ∧ (run ⟨1, 0, 0⟩ 100000).output = utf8 "1\n" ∧
    (∃ reason, (run ⟨1, 0, 0⟩ 100000).outcome = .error (.fault reason) ∧ reason.code = .budget) ∧
    (run ⟨1, 0, 0⟩ 100000).output <+: (run .none 100000).output ∧
    run ⟨2, 7, 0⟩ 100000 = run .none 100000 ∧
    ∃ enough, ∀ capacity, enough ≤ capacity → run ⟨3, 0, 0⟩ capacity = run ⟨2, 7, 0⟩ 100000 := by
  intro n call program run
  have succeeded : (run .none 100000).outcome.isOk = true := by decide +kernel
  have ended : (run .none 100000).outcome ≠ .error .overflow := by
    intro overflows
    rw [overflows] at succeeded
    cases succeeded
  have beyond := run_budget.1 program .empty (.standard .none) ⟨1, 0, 0⟩ (by decide) ended
  have within := run_budget.1 program .empty (.standard .none) ⟨2, 7, 0⟩ (by decide) ended
  obtain ⟨stopped, lines⟩ := beyond.2 (by decide +kernel)
  have same : run ⟨2, 7, 0⟩ 100000 = run .none 100000 := within.1 (by decide +kernel)
  refine ⟨by decide +kernel, by decide +kernel, stopped, lines, same, ?_⟩
  cases outcome : (run ⟨2, 7, 0⟩ 100000).outcome with
  | error halt =>
      rw [← same, outcome] at succeeded
      cases succeeded
  | ok completion =>
      exact run_budget.2 program .empty (.standard .none) ⟨2, 7, 0⟩ ⟨3, 0, 0⟩ (by decide) (by decide)
        ⟨by decide, by decide⟩ completion outcome

end Program

end Parlance
