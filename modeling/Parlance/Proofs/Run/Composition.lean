import Parlance.Proofs.Concatenation
import Parlance.Proofs.Run.Continuation
import Parlance.Proofs.Run.Formatting
import Parlance.Proofs.Run.Translation

namespace Parlance

/-!
Runs one after the other. A list of statements runs as its front does and then,
unless that failed or returned, as the rest does on the machine that the front
left. What a machine has counted and recorded before has no influence on what
comes, so the rest runs as it would in a run of its own, if what interrupts the
whole is moved to the front by the polls that are over.
-/

namespace Evaluation

variable (limits : Limits) (enter : Enter)

/-- What a list of statements does behind a statement that ended so. -/
def goOn (nodes : List Node) (completion : Completion) : Eval Completion :=
  if completion.returning then pure completion else statements limits enter completion nodes

theorem goOn_of_returning (nodes : List Node) {completion : Completion}
    (returning : completion.returning = true) :
    goOn limits enter nodes completion = pure completion :=
  if_pos returning

theorem goOn_of_normal (nodes : List Node) {completion : Completion}
    (normal : completion.returning = false) :
    goOn limits enter nodes completion = statements limits enter completion nodes :=
  if_neg (by rw [normal]; exact Bool.false_ne_true)

theorem step_bind (span : Span) (work : Eval Completion) {next next' : Completion → Eval Completion}
    (more : List Node) (normal : ∀ completion, completion.returning = false →
      next completion >>= goOn limits enter more = next' completion) :
    step limits span work next >>= goOn limits enter more = step limits span work next' := by
  simp only [step, bind_assoc]
  refine bind_congr fun _ => bind_congr fun _ => bind_congr fun _ => bind_congr fun completion =>
    bind_congr fun _ => ?_
  cases returning : completion.returning with
  | true =>
      have stops := goOn_of_returning limits enter more returning
      exact (pure_bind completion _).trans stops
  | false => exact normal completion returning

theorem statements_append (nodes more : List Node) {last : Completion}
    (normal : last.returning = false) :
    statements limits enter last (nodes ++ more) =
      statements limits enter last nodes >>= goOn limits enter more := by
  induction nodes generalizing last with
  | nil => rw [List.nil_append, statements, pure_bind, goOn_of_normal limits enter more normal]
  | cons node nodes inductionHypothesis =>
      rw [List.cons_append, statements_cons, statements_cons]
      refine (step_bind limits enter _ _ more ?_).symm
      exact fun completion normal => (inductionHypothesis normal).symm

/-- How the statement before them ended matters only where there are no statements. -/
theorem statements_of_ne_nil {nodes : List Node} (nonempty : nodes ≠ []) (last last' : Completion) :
    statements limits enter last nodes = statements limits enter last' nodes := by
  cases nodes with
  | nil => exact absurd rfl nonempty
  | cons node nodes => rw [statements_cons, statements_cons]

variable {limits enter}

/-- Where the work succeeds, it returns. -/
def Returns (work : Eval Completion) : Prop :=
  ∀ machine completion after, work machine = .ok completion after → completion.returning = true

namespace Returns

theorem value {completion : Completion} (returning : completion.returning = true) :
    Returns (pure completion) := by
  rintro machine _ _ ⟨⟩
  exact returning

theorem behind {α : Type} {first : Eval α} {next : α → Eval Completion}
    (returns : ∀ result, Returns (next result)) : Returns (first >>= next) := by
  intro machine completion after ended
  cases start : first machine with
  | ok result between =>
      rw [bind_of_ok start] at ended
      exact returns result between completion after ended
  | error halt between =>
      rw [bind_of_error start] at ended
      contradiction

theorem giveBack (last : Completion) (span : Span) (value : Node) :
    Returns (statements limits enter last [.giveBack span value]) := by
  rw [statements_cons, statement]
  simp only [step, bind_assoc, pure_bind]
  exact behind fun _ => behind fun _ => behind fun _ => behind fun _ => behind fun _ => .value rfl

theorem goOn {nodes : List Node} (returns : ∀ last, Returns (statements limits enter last nodes))
    (completion : Completion) : Returns (goOn limits enter nodes completion) := by
  cases returning : completion.returning with
  | true =>
      rw [goOn_of_returning limits enter nodes returning]
      exact .value returning
  | false =>
      rw [goOn_of_normal limits enter nodes returning]
      exact returns completion

end Returns

theorem getLast?_ne_giveBack {nodes : List Node} {last completion : Completion}
    {machine after : Machine} (start : last.returning = false)
    (ended : statements limits enter last nodes machine = .ok completion after)
    (normal : completion.returning = false) (span : Span) (value : Node) :
    nodes.getLast? ≠ some (.giveBack span value) := by
  intro ends
  obtain ⟨front, rfl⟩ := List.getLast?_eq_some_iff.mp ends
  rw [statements_append limits enter front _ start] at ended
  have returning : completion.returning = true :=
    Returns.behind (Returns.goOn fun last => .giveBack last span value) machine completion after ended
  rw [normal] at returning
  contradiction

end Evaluation

namespace Signal

/-- What is left of a schedule behind a number of polls. -/
def behind (polls : Nat) : Signal → Signal
  | live => live
  | due poll interruption => due (poll - polls) interruption

def ahead (polls : Nat) : Signal → Signal
  | live => live
  | due poll interruption => due (polls + poll) interruption

/-- What a run finds that follows one with so many polls, in a context that was `cancelled` on the
way or not. -/
def next (polls : Nat) (cancelled : Bool) (signal : Signal) : Signal :=
  if cancelled ∧ signal.interruption? polls ≠ some .deadline then .cancelled else signal.behind polls

theorem behind_zero (signal : Signal) : signal.behind 0 = signal := by
  cases signal <;> rfl

theorem interruption?_behind (polls poll : Nat) (signal : Signal) :
    (signal.behind polls).interruption? poll = signal.interruption? (polls + poll) := by
  cases signal with
  | live => rfl
  | due first interruption => simp only [behind, interruption?, Nat.sub_le_iff_le_add']

theorem interruption?_ahead (polls poll : Nat) (signal : Signal) :
    (signal.ahead polls).interruption? (polls + poll) = signal.interruption? poll := by
  cases signal with
  | live => rfl
  | due first interruption => simp only [ahead, interruption?, Nat.add_le_add_iff_left]

/-- The first poll of the next run finds what the next poll of this one would. -/
theorem cause?_next (limits : Limits) (polls : Nat) (cancelled : Bool) (signal : Signal) :
    (signal.next polls cancelled).cause? limits 0 false = signal.cause? limits polls cancelled := by
  by_cases stopped : cancelled ∧ signal.interruption? polls ≠ some .deadline
  · obtain ⟨rfl, other⟩ := stopped
    rw [next, if_pos ⟨rfl, other⟩]
    unfold cause?
    split
    · contradiction
    · rfl
  · have same := signal.interruption?_behind polls 0
    rw [Nat.add_zero] at same
    rw [next, if_neg stopped, cause?_congr same fun _ => rfl]
    cases cancelled with
    | false => rfl
    | true =>
        have expired : signal.interruption? polls = some .deadline := by simpa using stopped
        rw [cause?, cause?, expired]

end Signal

namespace Machine

/-- The machine as if nothing had been counted or recorded yet. -/
def fresh (machine : Machine) : Machine :=
  { machine with
    steps := 0
    deepest := 0
    signal := machine.signal.behind machine.steps
    written := []
    events := [] }

/-- The machine with what an earlier one counted and recorded in front. It has the schedule of the
earlier one again, if it started with what was left of that. -/
def behind (earlier machine : Machine) : Machine :=
  { machine with
    steps := earlier.steps + machine.steps
    deepest := max earlier.deepest machine.deepest
    signal :=
      if machine.signal = earlier.fresh.signal then earlier.signal
      else machine.signal.ahead earlier.steps
    written := machine.written ++ earlier.written
    events := machine.events ++ earlier.events }

theorem behind_fresh (machine : Machine) : machine.behind machine.fresh = machine := by
  simp only [behind, if_pos]
  change { machine with deepest := max machine.deepest 0 } = machine
  rw [Nat.max_zero]

end Machine

/-- Without a step limit no operation depends on what was counted and recorded before. -/
theorem Evaluation.Translation.exists_behind {limits : Limits} (unlimited : limits.steps ≤ 0)
    (earlier : Machine) :
    ∃ translation : Translation limits limits (fun _ => False),
      translation.machine = earlier.behind := by
  have allowed (count : Nat) : limits.allowsSteps count = true :=
    Limits.allowsSteps_iff.mpr (.inl unlimited)
  refine ⟨{ Translation.same limits (fun _ => False) with
    steps := (earlier.steps + ·)
    deepest := max earlier.deepest
    signal := fun schedule =>
      if schedule = earlier.fresh.signal then earlier.signal else schedule.ahead earlier.steps
    written := (· ++ earlier.written)
    events := (· ++ earlier.events)
    counted := fun _ => rfl
    stepAllowed := fun _ => allowed _
    stepRefused := fun {count} refused => ?_
    asked := fun schedule poll => ?_
    reached := fun _ _ => (Nat.max_assoc ..).symm
    wrote := fun _ _ => rfl
    recorded := fun _ _ => rfl }, rfl⟩
  · rw [allowed] at refused
    contradiction
  · split
    · next same =>
        rw [same]
        exact (Signal.interruption?_behind ..).symm
    · exact Signal.interruption?_ahead ..

open Evaluation

/-- The last report is what the other two show together, one run behind the other. -/
structure Report.Joins (first second whole : Report) : Prop where
  outcome : whole.outcome = second.outcome
  environment : whole.environment = second.environment
  steps : whole.steps = first.steps + second.steps
  deepest : whole.deepest = max first.deepest second.deepest
  written : whole.written = first.written ++ second.written

theorem Report.joins_of_seen {between start : Machine} (steps : start.steps = 0)
    (deepest : start.deepest = 0) (written : start.written = [])
    {result whole second : EStateM.Result Halt Machine Completion}
    (seen : Seen (fun _ => False) between.behind result whole)
    (seen' : Seen (fun _ => False) start.behind result second)
    (span span' : Span) (completion : Completion) :
    Report.Joins (.of span (.ok completion between)) (.of span' second) (.of span whole) := by
  have joined (after : Machine) :
      (between.steps + after.steps = between.steps + (start.steps + after.steps)) ∧
      max between.deepest after.deepest = max between.deepest (max start.deepest after.deepest) ∧
      (after.written ++ between.written).reverse =
        between.written.reverse ++ (after.written ++ start.written).reverse := by
    simp [steps, deepest, written]
  cases seen with
  | ok ended after =>
      cases seen' with
      | ok =>
          obtain ⟨steps, deepest, written⟩ := joined after
          exact ⟨rfl, rfl, steps, deepest, written⟩
  | error halt after =>
      cases seen' with
      | error =>
          obtain ⟨steps, deepest, written⟩ := joined after
          exact ⟨rfl, rfl, steps, deepest, written⟩
      | exempt impossible => exact impossible.elim
  | exempt impossible => exact impossible.elim

/-- What the next run starts with behind one that has counted a number of steps and written a
number of lines. -/
def Setup.behind (setup : Setup) (steps writes : Nat) : Setup :=
  { setup with
    outlet := setup.outlet.behind writes
    signal := setup.signal.next steps (setup.outlet.cancels writes) }

namespace Program

theorem result_eq (program : Program) (limits : Limits) (nesting : Nat) (machine : Machine) :
    program.result limits nesting machine = Evaluation.statements limits (invoke limits nesting)
      (.normal .nothing) program.statements machine := by
  unfold result statements
  cases program.body with
  | none => rw [optionalBlock, Evaluation.statements]
  | some body =>
      obtain ⟨span, nodes⟩ := body
      rw [optionalBlock, block]
      rfl

/-- On a machine that has run before, a program does what it does on a fresh one. -/
theorem result_fresh (program : Program) {limits : Limits} (unlimited : limits.steps ≤ 0)
    (nesting : Nat) (machine : Machine) :
    Seen (fun _ => False) machine.behind (program.result limits nesting machine.fresh)
      (program.result limits nesting machine) := by
  obtain ⟨translation, acts⟩ := Translation.exists_behind unlimited machine
  have seen := translation.result_same program nesting machine.fresh
  rwa [acts, machine.behind_fresh] at seen

theorem result_append (program : Program) (nodes : List Node) (limits : Limits) (nesting : Nat) :
    (program.followedBy nodes).result limits nesting =
      program.result limits nesting >>= goOn limits (invoke limits nesting) nodes := by
  have whole := funext ((program.followedBy nodes).result_eq limits nesting)
  have front := funext (program.result_eq limits nesting)
  rw [whole, front]
  exact statements_append limits (invoke limits nesting) program.statements nodes rfl

theorem result_followedBy (program other : Program) (limits : Limits) (nesting : Nat)
    {machine after : Machine} {completion : Completion}
    (ended : program.result limits nesting machine = .ok completion after)
    (normal : completion.returning = false) (nonempty : other.statements ≠ []) :
    (program.followedBy other.statements).result limits nesting machine =
      other.result limits nesting after := by
  rw [result_append, bind_of_ok ended, goOn_of_normal _ _ _ normal, result_eq,
    statements_of_ne_nil _ _ nonempty]

theorem result_followedBy_of_ended (program : Program) (nodes : List Node) (limits : Limits)
    (nesting : Nat) (machine : Machine)
    (ended : ∀ completion after, program.result limits nesting machine = .ok completion after →
      completion.returning = true) :
    (program.followedBy nodes).result limits nesting machine =
      program.result limits nesting machine := by
  rw [result_append]
  cases result : program.result limits nesting machine with
  | ok completion after =>
      rw [bind_of_ok result, goOn_of_returning _ _ _ (ended completion after result)]
      rfl
  | error halt after => rw [bind_of_error result]

theorem run_followedBy_of_ended (program : Program) (nodes : List Node) (environment : Environment)
    (setup : Setup) (ended : ∀ completion, (program.run environment setup).outcome = .ok completion →
      completion.returning = true) :
    (program.followedBy nodes).run environment setup = program.run environment setup := by
  rw [run_eq, runWithin] at ended
  rw [run_eq, run_eq, runWithin, runWithin]
  change Report.of program.span ((program.followedBy nodes).result _ _
    (program.start environment setup)) = _
  rw [result_followedBy_of_ended]
  intro completion after result
  rw [result] at ended
  exact ended completion rfl

theorem result_of_stopped (program : Program) {limits : Limits} (nesting : Nat) {machine : Machine}
    {cause : Cause} (nonempty : program.statements ≠ []) (stopped : machine.stop? limits = some cause) :
    program.result limits nesting machine = .error (.fault ⟨cause, none⟩) machine := by
  rw [result_eq]
  cases listed : program.statements with
  | nil => exact absurd listed nonempty
  | cons node nodes => rw [statements_cons, step_of_stopped stopped]

/-- What a machine that a run left has of the setup of the run. -/
structure Leaves (setup : Setup) (between : Machine) : Prop where
  depth : between.depth = 0
  signal : between.signal = setup.signal
  outlet : between.outlet = setup.outlet.behind between.written.length
  cancelled : between.cancelled = setup.outlet.cancels between.written.length

theorem result_leaves (program : Program) (environment : Environment) {setup : Setup}
    (untimed : setup.limits.time ≤ 0) {nesting : Nat} {completion : Completion} {between : Machine}
    (ended : program.result setup.limits nesting (program.start environment setup) =
      .ok completion between) : Leaves setup between := by
  have continues : (program.start environment setup).Continues between := by
    have ran := program.result_continues setup.limits nesting (program.start environment setup)
    rwa [ended] at ran
  obtain ⟨lines, written, outlet, cancelled⟩ := continues.lines
  have all : between.written = lines := written.trans (List.append_nil lines)
  subst all
  have startSignal : (program.start environment setup).signal = setup.signal :=
    Setup.initialSignal_of_untimed untimed
  exact ⟨continues.depth, continues.signal.trans startSignal, outlet, cancelled⟩

section Next

variable (other : Program) {setup : Setup} (untimed : setup.limits.time ≤ 0) {between : Machine}
  (leaves : Leaves setup between)
include untimed leaves

theorem initialSignal_behind :
    (setup.behind between.steps between.written.length).initialSignal =
      between.signal.next between.steps between.cancelled := by
  rw [leaves.signal, leaves.cancelled]
  exact Setup.initialSignal_of_untimed untimed

/-- The next run is stopped at once if this one would be at its next statement. -/
theorem start_stop? :
    (other.start between.environment (setup.behind between.steps between.written.length)).stop?
      setup.limits = between.stop? setup.limits := by
  change ((setup.behind between.steps between.written.length).initialSignal).cause? _ 0 false = _
  rw [initialSignal_behind untimed leaves]
  exact Signal.cause?_next ..

/-- The machine that a run left is one that the next run could start on, but for what it has counted
and recorded. -/
theorem start_fresh (live : between.stop? setup.limits = none) :
    (other.start between.environment (setup.behind between.steps between.written.length)).fresh =
      between.fresh := by
  have running := Machine.cancelled_of_live live
  have nextSignal : between.signal.next between.steps false = between.signal.behind between.steps :=
    if_neg fun stopped => Bool.false_ne_true stopped.1
  simp only [Machine.fresh, start, initialSignal_behind untimed leaves, running, nextSignal,
    leaves.depth, leaves.outlet, Signal.behind_zero]
  rfl

end Next

/-- Without a step limit and a time limit, statements that succeed are followed by others as a run is
by the next one. -/
theorem run_followedBy (program other : Program) (environment : Environment) (setup : Setup)
    (unlimited : setup.limits.steps ≤ 0) (untimed : setup.limits.time ≤ 0)
    (nonempty : other.statements ≠ []) {completion : Completion}
    (succeeded : (program.run environment setup).outcome = .ok completion)
    (normal : completion.returning = false) :
    let first := program.run environment setup
    Report.Joins first
      (other.run first.environment (setup.behind first.steps first.written.length))
      ((program.followedBy other.statements).run environment setup) := by
  intro first
  let nesting := setup.limits.nesting setup.capacity
  obtain ⟨between, ended⟩ : ∃ between, program.result setup.limits nesting
      (program.start environment setup) = .ok completion between := by
    rw [run_eq, runWithin] at succeeded
    exact Report.of_outcome_ok succeeded
  have leaves := program.result_leaves environment untimed ended
  have sameFirst : first = .of program.span (.ok completion between) := by
    rw [← ended]
    exact program.run_eq environment setup
  have sameLength : first.written.length = between.written.length := by
    rw [sameFirst]
    exact List.length_reverse
  let next := other.start between.environment (setup.behind between.steps between.written.length)
  have sameSecond : other.run first.environment (setup.behind first.steps first.written.length) =
      .of other.span (other.result setup.limits nesting next) := by
    rw [sameLength, sameFirst]
    exact other.run_eq ..
  have sameWhole : (program.followedBy other.statements).run environment setup =
      .of program.span (other.result setup.limits nesting between) := by
    rw [← program.result_followedBy other setup.limits nesting ended normal nonempty]
    exact run_eq _ environment setup
  rw [sameSecond, sameWhole, sameFirst]
  have sameStop := other.start_stop? untimed leaves
  cases live : between.stop? setup.limits with
  | some cause =>
      rw [live] at sameStop
      rw [other.result_of_stopped nesting nonempty live,
        other.result_of_stopped nesting nonempty sameStop]
      exact ⟨rfl, rfl, rfl, (Nat.max_zero _).symm, (List.append_nil _).symm⟩
  | none =>
      -- The machine between the runs and the one the second starts on are the same when fresh.
      have seen := other.result_fresh unlimited nesting between
      have seen' := other.result_fresh unlimited nesting next
      have fresh : next.fresh = between.fresh := other.start_fresh untimed leaves live
      rw [fresh] at seen'
      exact Report.joins_of_seen rfl rfl rfl seen seen' _ _ completion

theorem getLast?_statements_ne_giveBack (program : Program) (environment : Environment) (setup : Setup)
    {completion : Completion} (succeeded : (program.run environment setup).outcome = .ok completion)
    (normal : completion.returning = false) (span : Span) (value : Node) :
    program.statements.getLast? ≠ some (.giveBack span value) := by
  rw [run_eq, runWithin] at succeeded
  obtain ⟨after, ended⟩ := Report.of_outcome_ok succeeded
  rw [result_eq] at ended
  exact getLast?_ne_giveBack rfl ended normal span value

end Program

namespace Session

theorem parse_of_run {session after : Session} {outlet : Outlet} {signal : Signal}
    {file source : Text} {report : Report}
    (ran : session.run outlet signal file source = (.ok report, after)) :
    ∃ program, parse file source = .ok program := by
  cases parsed : parse file source with
  | ok program => exact ⟨program, rfl⟩
  | error error =>
      rw [run, parsed] at ran
      cases ran

/-- Two sources run one after the other, the first without an error or a return, do what the one
source does that has them on consecutive lines: the same lines are written, the value or the fault is
the same, and the session is left with the same bindings and declarations. The context of the second
is interrupted as much earlier as the first has asked. Steps add up, and the greatest depth is that
of the deeper run. Statements that fail or return are not followed by others
at all. -/
theorem run_newline :
    (∀ (session middle : Session) (outlet : Outlet) (signal : Signal)
        (file file' file'' source more : Text) (first : Report) (value : Value) (program' : Program),
      session.limits.steps ≤ 0 → session.limits.time ≤ 0 →
      session.run outlet signal file source = (.ok first, middle) →
      first.outcome = .ok (.normal value) →
      parse file' more = .ok program' → program'.statements ≠ [] →
      ∃ second whole after after',
        middle.run (outlet.behind first.written.length)
          (signal.next first.steps (outlet.cancels first.written.length)) file' more =
            (.ok second, after) ∧
        session.run outlet signal file'' (source ++ Text.newline :: more) = (.ok whole, after') ∧
        whole.written = first.written ++ second.written ∧
        (∀ completion, second.outcome = .ok completion ↔ whole.outcome = .ok completion) ∧
        (∀ halt, second.outcome = .error halt → ∃ halt', whole.outcome = .error halt' ∧
          halt'.diagnostic?.map Diagnostic.code = halt.diagnostic?.map Diagnostic.code ∧
          halt'.diagnostic?.map Diagnostic.message = halt.diagnostic?.map Diagnostic.message) ∧
        after.environment.erased = after'.environment.erased ∧ after.limits = after'.limits ∧
        whole.steps = first.steps + second.steps ∧
        whole.deepest = max first.deepest second.deepest) ∧
    (∀ (program : Program) (nodes : List Node) (environment : Environment) (setup : Setup),
      ((∃ halt, (program.run environment setup).outcome = .error halt) ∨
        ∃ value, (program.run environment setup).outcome = .ok ⟨value, true⟩) →
      (program.followedBy nodes).run environment setup = program.run environment setup) := by
  constructor
  · intro session middle outlet signal file file' file'' source more first value program' unlimited
      untimed ran succeeded accepted' nonempty
    obtain ⟨program, accepted⟩ := parse_of_run ran
    rw [session.run_of_parse outlet signal accepted] at ran
    cases ran
    let setup : Setup := ⟨session.limits, outlet, signal, session.capacity⟩
    -- A return at the end could take in the next line, but then the first run had returned.
    have closed := program.getLast?_statements_ne_giveBack session.environment setup succeeded rfl
    obtain ⟨together, accepted'', same⟩ := parse_newline file'' accepted accepted' closed
    have joins := program.run_followedBy program' session.environment setup unlimited untimed
      nonempty succeeded rfl
    have alike := Program.run_alike same.symm
      (show session.environment.erased = session.environment.erased from rfl) setup
    refine ⟨_, _, _, _, run_of_parse _ _ _ accepted', run_of_parse _ _ _ accepted'', ?_⟩
    refine ⟨?_, ?_, ?_, ?_, rfl, ?_, ?_⟩
    · exact alike.written.symm.trans joins.written
    · intro completion
      exact ⟨fun ended => alike.outcome_ok (joins.outcome.trans ended),
        fun ended => joins.outcome.symm.trans (alike.symm.outcome_ok ended)⟩
    · exact fun halt ended => alike.outcome_error (joins.outcome.trans ended)
    · exact (congrArg Environment.erased joins.environment).symm.trans alike.environment
    · exact alike.steps.symm.trans joins.steps
    · exact alike.deepest.symm.trans joins.deepest
  · intro program nodes environment setup ended
    refine program.run_followedBy_of_ended nodes environment setup fun completion succeeded => ?_
    rcases ended with ⟨halt, failed⟩ | ⟨value, returned⟩
    · rw [failed] at succeeded
      cases succeeded
    · rw [returned] at succeeded
      cases succeeded
      rfl

/-- A function that one source declares is called by the next, which ends with a return. Without the
declaration the call fails, and statements behind it do not matter. -/
theorem run_newline_call :
    let call (argument : Int64) : Node := .call .blank (utf8 "f") [.number .blank argument]
    let declaring : Program := ⟨.blank, some (.mk .blank [
      .declaration .blank (utf8 "f") [utf8 "a"] (some (.mk .blank [
        .unary .blank .print (.reference .blank (utf8 "a"))])),
      call 1])⟩
    let returning : Program := ⟨.blank, some (.mk .blank [call 2, .giveBack .blank (.number .blank 3)])⟩
    let session : Session := .start ⟨8, 0, 0⟩
    let setup := Setup.standard session.limits
    (∃ program' first middle second whole after after',
      session.run .unlimited .live [] declaring.format = (.ok first, middle) ∧
      first.outcome = .ok (.normal .nothing) ∧
      parse [] returning.format = .ok program' ∧ program'.statements ≠ [] ∧
      middle.run (Outlet.unlimited.behind first.written.length)
        (Signal.live.next first.steps (Outlet.unlimited.cancels first.written.length)) []
        returning.format = (.ok second, after) ∧
      session.run .unlimited .live [] (declaring.format ++ Text.newline :: returning.format) =
        (.ok whole, after') ∧
      whole.written = first.written ++ second.written ∧
      whole.steps = first.steps + second.steps) ∧
    (returning.run .empty setup).outcome.isOk = false ∧
    (returning.followedBy declaring.statements).run .empty setup = returning.run .empty setup := by
  intro call declaring returning session setup
  constructor
  · obtain ⟨program, accepted, same⟩ := parse_format [] (show declaring.WellFormed by decide +kernel)
    obtain ⟨program', accepted', same'⟩ :=
      parse_format [] (show returning.WellFormed by decide +kernel)
    have ran := session.run_of_parse .unlimited .live accepted
    have alike := Program.run_alike same.symm
      (show session.environment.erased = session.environment.erased from rfl) setup
    have printed : (declaring.run session.environment setup).outcome.toOption =
        some (.normal .nothing) := by decide +kernel
    have succeeded : (program.run session.environment setup).outcome = .ok (.normal .nothing) := by
      refine alike.outcome_ok ?_
      cases ended : (declaring.run session.environment setup).outcome with
      | ok completion =>
          rw [ended] at printed
          rw [Option.some.inj printed]
      | error halt =>
          rw [ended] at printed
          cases printed
    have nonempty : program'.statements ≠ [] := by
      intro empty
      have erased := congrArg Program.statements same'
      rw [Program.statements_erased, empty] at erased
      cases erased
    obtain ⟨second, whole, after, after', ran', ran'', written, _, _, _, _, steps, _⟩ :=
      run_newline.1 session _ .unlimited .live [] [] [] _ _ _ .nothing program' (by decide) (by decide)
        ran succeeded accepted' nonempty
    exact ⟨program', _, _, second, whole, after, after', ran, succeeded, accepted', nonempty, ran',
      ran'', written, steps⟩
  · have failed : (returning.run .empty setup).outcome.isOk = false := by decide +kernel
    refine ⟨failed, run_newline.2 returning declaring.statements .empty setup (.inl ?_)⟩
    cases ended : (returning.run .empty setup).outcome with
    | ok completion =>
        rw [ended] at failed
        cases failed
    | error halt => exact ⟨halt, rfl⟩

end Session

end Parlance
