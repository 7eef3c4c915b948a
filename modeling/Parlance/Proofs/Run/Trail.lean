import Parlance.Proofs.Run.Correspondence

namespace Parlance

/-!
The events that an evaluation records. What it does to the machine can be read
off them: the lines it wrote, the steps it counted, how deep its calls went. If
it comes to an end, every statement and every call in it has come to an end.
-/

namespace Event

/-- The line whose write the event reports. -/
def line? : Event → Option Text
  | .print _ text => some (text ++ [Text.newline])
  | _ => none

def isPrint : Event → Bool
  | .print .. => true
  | _ => false

theorem length_lines (events : List Event) :
    (events.filterMap line?).length = events.countP isPrint := by
  rw [List.length_filterMap_eq_countP]
  congr 1
  funext event
  cases event <;> rfl

def startsStatement : Event → Bool
  | .statementStart _ => true
  | _ => false

/-- The depth that the event reaches. -/
def reached : Event → Nat
  | .callStart _ _ depth => depth
  | _ => 0

/-- The greatest depth that the events reach. -/
def deepest (events : List Event) : Nat :=
  events.foldr (fun event depth => max event.reached depth) 0

@[simp]
theorem deepest_nil : deepest [] = 0 := rfl

@[simp]
theorem deepest_cons (event : Event) (events : List Event) :
    deepest (event :: events) = max event.reached (deepest events) := rfl

@[simp]
theorem deepest_append (events more : List Event) :
    deepest (events ++ more) = max (deepest events) (deepest more) := by
  induction events with
  | nil => exact (Nat.zero_max _).symm
  | cons event events inductionHypothesis =>
      rw [List.cons_append, deepest_cons, deepest_cons, inductionHypothesis, Nat.max_assoc]

/-- An event inside a run that keeps to the limits. -/
def Within (limits : Limits) : Event → Prop
  | .runStart _ | .runEnd .. => False
  | .callStart _ _ depth => limits.allowsDepth depth = true
  | _ => True

/-- Every statement and every call that starts also ends, in the reverse order,
at its own span. A call counts the calls that are open around it, and itself. -/
inductive Balanced : Nat → List Event → Prop
  | nil {depth : Nat} : Balanced depth []
  | print {depth : Nat} {span : Span} {text : Text} {behind : List Event} :
      Balanced depth behind → Balanced depth (.print span text :: behind)
  | statement {depth : Nat} {span : Span} {inside behind : List Event} :
      Balanced depth inside → Balanced depth behind →
        Balanced depth (.statementStart span :: (inside ++ .statementEnd span :: behind))
  | call {depth : Nat} {span : Span} {function : Text} {inside behind : List Event} :
      Balanced (depth + 1) inside → Balanced depth behind →
        Balanced depth (.callStart span function (depth + 1) ::
          (inside ++ .callEnd span function (depth + 1) :: behind))

theorem Balanced.append {depth : Nat} {events more : List Event} (balanced : Balanced depth events)
    (behind : Balanced depth more) : Balanced depth (events ++ more) := by
  induction balanced with
  | nil => exact behind
  | print _ inductionHypothesis => exact .print (inductionHypothesis behind)
  | statement inside _ _ inductionHypothesis =>
      rw [List.cons_append, List.append_assoc]
      exact .statement inside (inductionHypothesis behind)
  | call inside _ _ inductionHypothesis =>
      rw [List.cons_append, List.append_assoc]
      exact .call inside (inductionHypothesis behind)

end Event

namespace Machine

/-- The events of the log, oldest first, have been recorded in between, and the
lines written in between are those that they report. -/
structure Logged (limits : Limits) (before after : Machine) (log : List Event) : Prop where
  events : after.events = log.reverse ++ before.events
  written : after.written = (log.filterMap Event.line?).reverse ++ before.written
  within : ∀ event ∈ log, event.Within limits

/-- What has been started in between has come to an end. -/
structure Finished (limits : Limits) (before after : Machine) (log : List Event) : Prop
    extends Logged limits before after log where
  depth : after.depth = before.depth
  balanced : Event.Balanced before.depth log
  steps : after.steps = before.steps + log.countP Event.startsStatement
  deepest : after.deepest = max before.deepest (Event.deepest log)

variable {limits : Limits} {first second third : Machine} {log more : List Event}

theorem Logged.trans (logged : first.Logged limits second log)
    (logged' : second.Logged limits third more) : first.Logged limits third (log ++ more) where
  events := by simp [logged'.events, logged.events]
  written := by simp [logged'.written, logged.written]
  within event member := by
    rcases List.mem_append.mp member with inside | inside
    · exact logged.within event inside
    · exact logged'.within event inside

theorem Finished.trans (finished : first.Finished limits second log)
    (finished' : second.Finished limits third more) :
    first.Finished limits third (log ++ more) where
  toLogged := finished.toLogged.trans finished'.toLogged
  depth := finished'.depth.trans finished.depth
  balanced := finished.balanced.append (finished.depth ▸ finished'.balanced)
  steps := by rw [finished'.steps, finished.steps, List.countP_append, Nat.add_assoc]
  deepest := by rw [finished'.deepest, finished.deepest, Event.deepest_append, Nat.max_assoc]

theorem Logged.silent (events : second.events = first.events)
    (written : second.written = first.written) : first.Logged limits second [] :=
  ⟨events, written, nofun⟩

theorem Finished.silent (events : second.events = first.events)
    (written : second.written = first.written) (depth : second.depth = first.depth)
    (steps : second.steps = first.steps) (deepest : second.deepest = first.deepest) :
    first.Finished limits second [] where
  toLogged := .silent events written
  depth := depth
  balanced := .nil
  steps := steps
  deepest := deepest.trans (Nat.max_zero _).symm

theorem Logged.record {event : Event} (within : event.Within limits)
    (noLine : event.line? = none) (events : second.events = event :: first.events)
    (written : second.written = first.written) : first.Logged limits second [event] where
  events := events
  written := by simp [noLine, written]
  within := List.forall_mem_singleton.mpr within

/-- The events of a call stand around those of its body. -/
theorem Logged.call {caller after : Machine} {span : Span} {function : Function} {name : Text}
    {arguments : List Value} (allowed : limits.allowsDepth (caller.depth + 1) = true)
    (logged : (caller.entered span function name arguments).Logged limits after log) :
    caller.Logged limits (caller.left span name after)
      ([.callStart span name (caller.depth + 1)] ++ log ++ [.callEnd span name after.depth]) :=
  have entered : caller.Logged limits (caller.entered span function name arguments)
      [.callStart span name (caller.depth + 1)] := .record allowed rfl rfl rfl
  have left : after.Logged limits (caller.left span name after)
      [.callEnd span name after.depth] := .record trivial rfl rfl rfl
  (entered.trans logged).trans left

theorem Finished.call {caller after : Machine} {span : Span} {function : Function} {name : Text}
    {arguments : List Value} (allowed : limits.allowsDepth (caller.depth + 1) = true)
    (finished : (caller.entered span function name arguments).Finished limits after log) :
    caller.Finished limits (caller.left span name after)
      ([.callStart span name (caller.depth + 1)] ++ log ++ [.callEnd span name after.depth]) where
  toLogged := finished.toLogged.call allowed
  depth := by
    change after.depth - 1 = _
    rw [finished.depth]
    rfl
  balanced := by
    rw [finished.depth]
    exact .call finished.balanced .nil
  steps := by
    have steps := finished.steps
    simpa [left, entered, Event.startsStatement] using steps
  deepest := by
    have deepest := finished.deepest
    simpa [left, entered, Event.reached, Nat.max_assoc] using deepest

theorem Finished.statement {machine after : Machine} {span : Span}
    (finished : (machine.started span).Finished limits after log) :
    machine.Finished limits (after.recorded (.statementEnd span))
      ([.statementStart span] ++ log ++ [.statementEnd span]) where
  toLogged := by
    have started : machine.Logged limits (machine.started span) [.statementStart span] :=
      .record trivial rfl rfl rfl
    have ended : after.Logged limits (after.recorded (.statementEnd span)) [.statementEnd span] :=
      .record trivial rfl rfl rfl
    exact (started.trans finished.toLogged).trans ended
  depth := finished.depth
  balanced := .statement finished.balanced .nil
  steps := by
    have steps := finished.steps
    simp only [started, recorded, stepped] at steps
    simp [recorded, List.countP_cons, Event.startsStatement]
    omega
  deepest := by
    have deepest := finished.deepest
    simpa [recorded, started, stepped, Event.reached] using deepest

end Machine

namespace Evaluation

open Machine

variable {α β : Type} {limits : Limits}

/-- However the evaluation ended, its events tell what it did. -/
inductive Trail (limits : Limits) (machine : Machine) : EStateM.Result Halt Machine α → Prop
  | ok {result : α} {after : Machine} {log : List Event}
      (finished : machine.Finished limits after log) : Trail limits machine (.ok result after)
  | error {halt : Halt} {after : Machine} {log : List Event}
      (logged : machine.Logged limits after log) : Trail limits machine (.error halt after)

def Traced (limits : Limits) (work : Eval α) : Prop :=
  ∀ machine : Machine, Trail limits machine (work machine)

/-- What is done behind a finished part adds to its events. -/
theorem Trail.behind {machine after : Machine} {log : List Event}
    {result : EStateM.Result Halt Machine α} (finished : machine.Finished limits after log)
    (rest : Trail limits after result) : Trail limits machine result := by
  cases rest with
  | ok finished' => exact .ok (finished.trans finished')
  | error logged => exact .error (finished.toLogged.trans logged)

namespace Traced

theorem value (result : α) : Traced limits (pure result) :=
  fun _ => .ok (.silent rfl rfl rfl rfl rfl)

theorem stop (halt : Halt) : Traced limits (throw halt : Eval α) :=
  fun _ => .error (.silent rfl rfl)

theorem lookup (name : Text) (span : Span) : Traced limits (Machine.lookup name span) := by
  intro machine
  cases found : machine.environment.get? name with
  | some result =>
      rw [Machine.lookup_of_some span found]
      exact value result machine
  | none =>
      rw [Machine.lookup_of_none span found]
      exact stop _ machine

theorem resolve (name : Text) (span : Span) {use : Function → Eval α}
    (behind : ∀ function, Traced limits (use function)) :
    Traced limits (resolve name span use) := by
  intro machine
  cases found : machine.environment.function? name with
  | some function =>
      rw [resolve_of_some span use found]
      exact behind function machine
  | none =>
      rw [resolve_of_none span use found]
      exact stop _ machine

theorem print (span : Span) (text : Text) : Traced limits (print span text) := by
  intro machine
  unfold Evaluation.print
  by_cases full : machine.outlet.room = some 0
  · rw [bind_of_error (Machine.write_of_full span text full)]
    exact stop _ machine
  · rw [bind_of_ok (Machine.write_of_room span text full)]
    have finished : machine.Finished limits
        ((machine.wrote (text ++ [Text.newline])).recorded (.print span text))
        [.print span text] := {
      events := rfl
      written := rfl
      within := List.forall_mem_singleton.mpr trivial
      depth := rfl
      balanced := .print .nil
      steps := rfl
      deepest := (Nat.max_zero _).symm }
    exact .ok finished

theorem bind {first : Eval α} {next : α → Eval β} (traced : Traced limits first)
    (behind : ∀ result, Traced limits (next result)) : Traced limits (first >>= next) := by
  intro machine
  have start := traced machine
  generalize ended : first machine = result at start
  cases start with
  | error logged =>
      rw [bind_of_error ended]
      exact .error logged
  | @ok result after log finished =>
      rw [bind_of_ok ended]
      exact .behind finished (behind result after)

theorem call {enter : Enter} (entering : ∀ body, Traced limits (enter body)) (span : Span)
    (function : Function) (name : Text) (arguments : List Value) :
    Traced limits (Machine.call limits enter span function name arguments) := by
  intro machine
  cases allowed : limits.allowsDepth (machine.depth + 1) with
  | false =>
      rw [Machine.call_of_refused enter span function name arguments allowed]
      exact .error (.silent rfl rfl)
  | true =>
      rw [Machine.call_of_allowed enter span function name arguments allowed]
      have inside := entering function.body (machine.entered span function name arguments)
      generalize enter function.body _ = result at inside ⊢
      cases inside with
      | ok finished => exact .ok (finished.call allowed)
      | error logged => exact .error (logged.call allowed)

theorem step (span : Span) {work : Eval Completion} {next : Completion → Eval Completion}
    (traced : Traced limits work) (behind : ∀ completion, Traced limits (next completion)) :
    Traced limits (step limits span work next) := by
  intro machine
  have inside := traced (machine.started span)
  have ways := step_stepped limits span work next machine
  generalize Evaluation.step limits span work next machine = result at ways ⊢
  cases ways with
  | stopped => exact .error (.silent rfl rfl)
  | refused => exact .error (.silent rfl rfl)
  | failed _ _ ended =>
      rw [ended] at inside
      cases inside with
      | error logged =>
          have started : machine.Logged limits (machine.started span) [.statementStart span] :=
            .record trivial rfl rfl rfl
          exact .error (started.trans logged)
  | returned _ _ ended _ =>
      rw [ended] at inside
      cases inside with
      | ok finished => exact .ok finished.statement
  | @wentOn completion _ _ _ ended _ =>
      rw [ended] at inside
      cases inside with
      | ok finished => exact .behind finished.statement (behind completion _)

end Traced

theorem Traced.finished {work : Eval α} (traced : Traced limits work) {machine after : Machine}
    {result : α} (ended : work machine = .ok result after) :
    ∃ log, machine.Finished limits after log := by
  have trail := traced machine
  rw [ended] at trail
  cases trail with
  | ok finished => exact ⟨_, finished⟩

theorem traced_corresponds (limits limits' : Limits) {enter : Enter} (enter' : Enter)
    (entering : ∀ body, Traced limits (enter body)) :
    Corresponds limits limits' enter enter' (fun _ work _ => Traced limits work)
      (fun work _ => Traced limits work) where
  value := .value
  bind := .bind
  fail _ _ := .stop _
  lookup := .lookup
  resolve name span _ _ := .resolve name span
  assign _ _ _ := .ok (.silent rfl rfl rfl rfl rfl)
  define _ _ := .ok (.silent rfl rfl rfl rfl rfl)
  print := .print
  call := .call entering
  branch := id
  finish := .value
  step span _ _ _ _ := .step span

theorem invoke_traced (limits : Limits) (nesting : Nat) (body : Option Block) :
    Traced limits (invoke limits nesting body) := by
  induction nesting generalizing body with
  | zero => exact .stop .overflow
  | succ nesting inductionHypothesis =>
      exact (traced_corresponds limits limits (invoke limits nesting)
        inductionHypothesis).ofOptionalBlock body

end Evaluation

end Parlance
