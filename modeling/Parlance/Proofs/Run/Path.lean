import Parlance.Proofs.Run.Discipline
import Parlance.Proofs.Run.Walk

namespace Parlance

/-!
What the places of a run have to do with its end. A failure anywhere is the
failure of the run, and every call that a run has recorded was taken up at some
place.
-/

namespace Evaluation

/-- The function whose body the part is, if a call turns to it. -/
def Opening.function? (environment : Environment) : Opening → Option Function
  | .call _ name => environment.function? name
  | _ => none

/-- The way from a whole to a place inside it, with the functions whose calls
are open there, the outermost first. -/
inductive Path (limits : Limits) : Visit → List Function → Visit → Prop
  | here {visit : Visit} : Path limits visit [] visit
  | part {whole inner visit : Visit} {opening : Opening} {callers : List Function}
      (part : Part limits whole opening inner) (behind : Path limits inner callers visit) :
      Path limits whole ((opening.function? whole.machine.environment).toList ++ callers) visit

section Paths

variable {limits : Limits} {whole inner visit : Visit} {opening : Opening}

theorem Visits.exists_path (visits : Visits limits whole visit) :
    ∃ callers, Path limits whole callers visit := by
  induction visits with
  | here => exact ⟨[], .here⟩
  | part part behind inductionHypothesis =>
      obtain ⟨callers, path⟩ := inductionHypothesis
      exact ⟨_, .part part path⟩

theorem Path.visits {callers : List Function} (path : Path limits whole callers visit) :
    Visits limits whole visit := by
  induction path with
  | here => exact .here
  | part part _ inductionHypothesis => exact .part part inductionHypothesis

theorem Visits.fails {halt : Halt} {after : Machine} (visits : Visits limits whole visit)
    (failed : visit.Fails limits halt after) : ∃ after', whole.Fails limits halt after' := by
  induction visits with
  | here => exact ⟨after, failed⟩
  | part part _ inductionHypothesis =>
      obtain ⟨inside, failed'⟩ := inductionHypothesis failed
      obtain ⟨after', failed'', _⟩ := part.fails failed'
      exact ⟨after', failed''⟩

end Paths

end Evaluation

open Evaluation

theorem Program.outcome_of_fails {program : Program} {environment : Environment} {setup : Setup}
    {visit : Visit} {halt : Halt} {after : Machine}
    (visits : Visits setup.limits (program.visit environment setup) visit)
    (failed : visit.Fails setup.limits halt after) :
    (program.run environment setup).outcome = .error halt := by
  obtain ⟨after', failed'⟩ := visits.fails failed
  rw [run_eq, runWithin]
  have ended : program.result setup.limits (setup.limits.nesting setup.capacity)
      (program.start environment setup) = .error halt after' := failed'
  rw [ended]
  rfl

namespace Evaluation

/-- Somewhere in the evaluation a call is taken up with as many arguments as the
function has parameters. -/
def Calls (limits : Limits) (whole : Visit) (span : Span) (name : Text) : Prop :=
  ∃ nesting nodes machine function,
    Visits limits whole ⟨nesting, .expression (.call span name nodes), machine⟩ ∧
      machine.environment.function? name = some function ∧
      nodes.length = function.parameters.length

/-- Somewhere in the evaluation a value with this text is printed. -/
def Prints (limits : Limits) (whole : Visit) (span : Span) (text : Text) : Prop :=
  ∃ nesting operand machine value after,
    Visits limits whole ⟨nesting, .statement (.unary span .print operand), machine⟩ ∧
      expression limits (invoke limits nesting) operand machine = .ok value after ∧
      value.text? = some text

/-- Calls and prints are recorded for something in the evaluation. -/
def Explains (limits : Limits) (whole : Visit) : Event → Prop
  | .callStart span name _ => Calls limits whole span name
  | .print span text => Prints limits whole span text
  | _ => True

/-- Everything that has been recorded in between belongs to the evaluation. -/
def Accounts (limits : Limits) (whole : Visit) (before after : Machine) : Prop :=
  ∀ event ∈ after.events, event ∈ before.events ∨ Explains limits whole event

section Accounts

variable {α β : Type} {limits : Limits} {whole inner : Visit} {opening : Opening}
  {before middle after : Machine}

theorem Explains.ofPart {event : Event} (part : Part limits whole opening inner)
    (explains : Explains limits inner event) : Explains limits whole event := by
  cases event with
  | callStart span name depth =>
      obtain ⟨nesting, nodes, machine, function, visits, found, matching⟩ := explains
      exact ⟨nesting, nodes, machine, function, .part part visits, found, matching⟩
  | print span text =>
      obtain ⟨nesting, operand, machine, value, after, visits, evaluated, same⟩ := explains
      exact ⟨nesting, operand, machine, value, after, .part part visits, evaluated, same⟩
  | _ => trivial

namespace Accounts

theorem same (events : after.events = before.events) : Accounts limits whole before after := by
  intro event member
  exact .inl (events ▸ member)

theorem recorded {event : Event} (events : after.events = event :: before.events)
    (explains : Explains limits whole event) : Accounts limits whole before after := by
  intro other member
  rw [events] at member
  rcases List.mem_cons.mp member with rfl | member
  · exact .inr explains
  · exact .inl member

theorem trans (accounts : Accounts limits whole before middle)
    (accounts' : Accounts limits whole middle after) : Accounts limits whole before after := by
  intro event member
  rcases accounts' event member with member | explains
  · exact accounts event member
  · exact .inr explains

theorem ofPart (part : Part limits whole opening inner)
    (accounts : Accounts limits inner before after) : Accounts limits whole before after :=
  fun event member => (accounts event member).imp_right (.ofPart part)

theorem bind {first : Eval α} {next : α → Eval β} {machine : Machine}
    (accounts : Accounts limits whole machine (final (first machine)))
    (behind : ∀ result after, first machine = .ok result after →
      Accounts limits whole after (final (next result after))) :
    Accounts limits whole machine (final ((first >>= next) machine)) := by
  cases ended : first machine with
  | error halt after =>
      rw [bind_of_error ended]
      rwa [ended] at accounts
  | ok result after =>
      rw [bind_of_ok ended]
      rw [ended] at accounts
      exact accounts.trans (behind result after ended)

theorem lookup {machine : Machine} (name : Text) (span : Span) :
    Accounts limits whole machine (final (Machine.lookup name span machine)) := by
  cases found : machine.environment.get? name with
  | some value =>
      rw [Machine.lookup_of_some span found]
      exact .same rfl
  | none =>
      rw [Machine.lookup_of_none span found]
      exact .same rfl

theorem print {machine : Machine} {span : Span} {text : Text}
    (prints : Prints limits whole span text) :
    Accounts limits whole machine (final (print span text machine)) := by
  unfold Evaluation.print
  by_cases full : machine.outlet.room = some 0
  · rw [bind_of_error (Machine.write_of_full span text full)]
    exact .same rfl
  · rw [bind_of_ok (Machine.write_of_room span text full)]
    exact .recorded rfl prints

/-- The start of a call is the one event of its own that has to be explained. -/
theorem call {enter : Enter} {machine : Machine} {span : Span} {function : Function} {name : Text}
    {values : List Value} (calls : Calls limits whole span name)
    (inside : limits.allowsDepth (machine.depth + 1) = true →
      Accounts limits whole (machine.entered span function name values)
        (final (enter function.body (machine.entered span function name values)))) :
    Accounts limits whole machine
      (final (Machine.call limits enter span function name values machine)) := by
  cases allowed : limits.allowsDepth (machine.depth + 1) with
  | false =>
      rw [Machine.call_of_refused _ _ _ _ _ allowed]
      exact .same rfl
  | true =>
      rw [Machine.call_of_allowed _ _ _ _ _ allowed]
      have starts : Accounts limits whole machine (machine.entered span function name values) :=
        .recorded rfl calls
      have accounts := starts.trans (inside allowed)
      cases ended : enter function.body (machine.entered span function name values) with
      | ok completion after =>
          rw [ended] at accounts
          exact accounts.trans (.recorded rfl trivial)
      | error halt after =>
          rw [ended] at accounts
          exact accounts.trans (.recorded rfl trivial)

theorem step {machine : Machine} {span : Span} {work : Eval Completion}
    {next : Completion → Eval Completion}
    (inside : machine.stop? limits = none → limits.allowsSteps (machine.steps + 1) = true →
      Accounts limits whole (machine.started span) (final (work (machine.started span))))
    (behind : ∀ completion after, machine.stop? limits = none →
      limits.allowsSteps (machine.steps + 1) = true →
      work (machine.started span) = .ok completion after → completion.returning = false →
      Accounts limits whole (after.recorded (.statementEnd span))
        (final (next completion (after.recorded (.statementEnd span))))) :
    Accounts limits whole machine (final (step limits span work next machine)) := by
  have started : Accounts limits whole machine (machine.started span) := .recorded rfl trivial
  have ways := step_stepped limits span work next machine
  generalize Evaluation.step limits span work next machine = result at ways ⊢
  cases ways with
  | stopped => exact .same rfl
  | refused => exact .same rfl
  | failed live allowed ended =>
      have accounts := inside live allowed
      rw [ended] at accounts
      exact started.trans accounts
  | returned live allowed ended =>
      have accounts := inside live allowed
      rw [ended] at accounts
      exact (started.trans accounts).trans (.recorded rfl trivial)
  | @wentOn completion after live allowed ended goesOn =>
      have accounts := inside live allowed
      rw [ended] at accounts
      have closed : Accounts limits whole machine (after.recorded (.statementEnd span)) :=
        (started.trans accounts).trans (.recorded rfl trivial)
      exact closed.trans (behind completion after live allowed ended goesOn)

end Accounts

theorem accounts_walk (limits : Limits) :
    Walk limits fun whole machine _ work =>
      Accounts limits whole machine (final (work machine)) where
  value _ := .same rfl
  fail _ _ := .same rfl
  overflow := .same rfl
  lookup := .lookup
  assign _ _ := .same rfl
  define _ := .same rfl
  bind := .bind
  resolve {_ machine} _ name span _ accounts := by
    cases found : machine.environment.function? name with
    | none =>
        rw [resolve_of_none span _ found]
        exact .same rfl
    | some function =>
        rw [resolve_of_some span _ found]
        exact accounts function found
  print {nesting machine after _ operand value _} evaluated shown :=
    .print ⟨nesting, operand, machine, value, after, .here, evaluated, shown⟩
  part := .ofPart
  call {nesting machine _ _ _ nodes function _} found matching evaluated inside :=
    .call ⟨nesting, nodes, machine, function, .here, found, matching⟩ fun allowed =>
      (inside allowed).ofPart (.called found matching evaluated allowed)
  step inside behind := by
    rw [statements_cons]
    exact .step (fun live allowed => (inside live allowed).ofPart (.first live allowed)) behind

end Accounts

end Evaluation

theorem Program.explains_of_mem_events {program : Program} {environment : Environment}
    {setup : Setup} {event : Event} (member : event ∈ (program.run environment setup).events) :
    Explains setup.limits (program.visit environment setup) event := by
  have accounts := (accounts_walk setup.limits).does (program.visit environment setup)
  rw [run_eq, runWithin, Report.of_events] at member
  rcases List.mem_append.mp member with member | member
  · rcases accounts event (List.mem_reverse.mp member) with member | explains
    · obtain rfl : event = .runStart program.span := by simpa [visit, start] using member
      trivial
    · exact explains
  · obtain rfl := List.mem_singleton.mp member
    cases program.result setup.limits (setup.limits.nesting setup.capacity)
      (program.start environment setup) <;> trivial

/-- The calls that a run records were taken up in it. -/
theorem Program.calls_of_mem_events {program : Program} {environment : Environment} {setup : Setup}
    {span : Span} {name : Text} {depth : Nat}
    (member : .callStart span name depth ∈ (program.run environment setup).events) :
    Calls setup.limits (program.visit environment setup) span name :=
  explains_of_mem_events member

/-- The texts that a run records as printed were printed in it. -/
theorem Program.prints_of_mem_events {program : Program} {environment : Environment}
    {setup : Setup} {span : Span} {text : Text}
    (member : .print span text ∈ (program.run environment setup).events) :
    Prints setup.limits (program.visit environment setup) span text :=
  explains_of_mem_events member

end Parlance
