import Parlance.Proofs.Run.Visit

namespace Parlance

/-!
What the trace of a run looks like, whatever the program does and however the
run ends.
-/

namespace Event

def isRun : Event → Bool
  | .runStart _ | .runEnd .. => true
  | _ => false

def isCall : Event → Bool
  | .callStart .. | .callEnd .. => true
  | _ => false

def isCallEnd : Event → Bool
  | .callEnd .. => true
  | _ => false

/-- Events up to a point where some statements and calls are in progress. What is
kept of them leaves out the starts of these statements, and the closing events
end these calls, the innermost first. -/
inductive Interrupted : Nat → List Event → List Event → List Event → Prop
  | here {depth : Nat} {events : List Event} :
      Balanced depth events → Interrupted depth events events []
  | statement {depth : Nat} {span : Span} {front inside kept closing : List Event} :
      Balanced depth front → Interrupted depth inside kept closing →
        Interrupted depth (front ++ .statementStart span :: inside) (front ++ kept) closing
  | call {depth : Nat} {span : Span} {function : Text} {front inside kept closing : List Event} :
      Balanced depth front → Interrupted (depth + 1) inside kept closing →
        Interrupted depth (front ++ .callStart span function (depth + 1) :: inside)
          (front ++ .callStart span function (depth + 1) :: kept)
          (closing ++ [.callEnd span function (depth + 1)])

theorem Balanced.calls {depth : Nat} {events : List Event} (balanced : Balanced depth events) :
    Balanced depth (events.filter isCall) := by
  induction balanced with
  | nil => exact .nil
  | print _ inductionHypothesis => exact inductionHypothesis
  | statement _ _ insideCalls behindCalls =>
      simpa [isCall] using insideCalls.append behindCalls
  | call _ _ insideCalls behindCalls =>
      simpa [List.filter_cons, isCall] using Balanced.call insideCalls behindCalls

namespace Interrupted

variable {depth : Nat} {before kept closing front : List Event}

theorem prepend (interrupted : Interrupted depth before kept closing)
    (balanced : Balanced depth front) :
    Interrupted depth (front ++ before) (front ++ kept) closing := by
  cases interrupted with
  | here inside => exact .here (balanced.append inside)
  | statement inFront inside =>
      rw [← List.append_assoc, ← List.append_assoc]
      exact .statement (balanced.append inFront) inside
  | call inFront inside =>
      rw [← List.append_assoc, ← List.append_assoc]
      exact .call (balanced.append inFront) inside

/-- Without the statements in progress, everything that starts also ends. -/
theorem balanced (interrupted : Interrupted depth before kept closing) :
    Balanced depth (kept ++ closing) := by
  induction interrupted with
  | here inside => rwa [List.append_nil]
  | statement inFront _ inductionHypothesis =>
      rw [List.append_assoc]
      exact inFront.append inductionHypothesis
  | call inFront _ inductionHypothesis =>
      rw [List.append_assoc, List.cons_append, ← List.append_assoc]
      exact inFront.append (.call inductionHypothesis .nil)

/-- The statements in progress are no calls. -/
theorem calls (interrupted : Interrupted depth before kept closing) :
    before.filter isCall = kept.filter isCall := by
  induction interrupted with
  | here => rfl
  | statement _ _ inductionHypothesis => simp [isCall, inductionHypothesis]
  | call _ _ inductionHypothesis => simp [List.filter_cons, isCall, inductionHypothesis]

theorem closing_isCallEnd (interrupted : Interrupted depth before kept closing) :
    ∀ event ∈ closing, event.isCallEnd = true := by
  induction interrupted with
  | here => exact nofun
  | statement _ _ inductionHypothesis => exact inductionHypothesis
  | call _ _ inductionHypothesis =>
      rw [List.forall_mem_append, List.forall_mem_singleton]
      exact ⟨inductionHypothesis, rfl⟩

end Interrupted

end Event

namespace Evaluation

/-- A failure arises at one place, and from there on only calls are closed. -/
theorem Visit.Fails.breaks {limits : Limits} {visit : Visit} {halt : Halt} {after : Machine}
    (failed : visit.Fails limits halt after) :
    ∃ source broken before kept closing, Visits limits visit source ∧
      source.Breaks limits halt broken ∧
      Event.Interrupted visit.machine.depth before kept closing ∧
      broken.events = before.reverse ++ visit.machine.events ∧
      after.events = closing.reverse ++ broken.events := by
  -- As long as some part fails, the failure has arisen there: what was logged in front of the part
  -- is finished, and on the way out only the opening of the part is closed.
  by_cases inParts : ∃ opening inner halt' inside,
      Part limits visit opening inner ∧ inner.Fails limits halt' inside
  · obtain ⟨opening, inner, halt', inside, part, failed'⟩ := inParts
    obtain ⟨after', wholeFailed, closes⟩ := part.fails failed'
    obtain ⟨rfl, rfl⟩ := failed.unique wholeFailed
    obtain ⟨source, broken, before, kept, closing, visits, breaks, interrupted, opened, closed⟩ :=
      failed'.breaks
    obtain ⟨middle, log, finished, begins⟩ := part.begins
    have depth := failed'.depth
    generalize inner.machine = started at begins interrupted opened depth
    cases begins with
    | nothing =>
        rw [finished.depth] at interrupted
        refine ⟨source, broken, log ++ before, log ++ kept, closing, .part part visits, breaks,
          interrupted.prepend finished.balanced, ?_, ?_⟩
        · simp [opened, finished.events]
        · simp [closes, closed, Opening.closing]
    | @statement _ span =>
        have sameDepth : (middle.started span).depth = visit.machine.depth := finished.depth
        rw [sameDepth] at interrupted
        refine ⟨source, broken, log ++ .statementStart span :: before, log ++ kept, closing,
          .part part visits, breaks, .statement finished.balanced interrupted, ?_, ?_⟩
        · simp [opened, finished.events, Machine.started, Machine.recorded, Machine.stepped]
        · simp [closes, closed, Opening.closing]
    | @call _ span function name arguments =>
        have deeper : (middle.entered span function name arguments).depth =
            visit.machine.depth + 1 := congrArg (· + 1) finished.depth
        rw [deeper] at interrupted depth
        refine ⟨source, broken, _, _, _, .part part visits, breaks,
          @Event.Interrupted.call _ span name _ _ _ _ finished.balanced interrupted, ?_, ?_⟩
        · simp [opened, finished.events, finished.depth, Machine.entered]
        · simp [closes, closed, Opening.closing, depth]
  · refine ⟨visit, after, ?_⟩
    have breaks : visit.Breaks limits halt after :=
      ⟨failed, fun opening inner part halt' inside failed' =>
        inParts ⟨opening, inner, halt', inside, part, failed'⟩⟩
    rcases failed.descends with ⟨opening, inner, inside, part, failed'⟩ | ⟨log, balanced, events⟩
    · exact absurd ⟨opening, inner, halt, inside, part, failed'⟩ inParts
    · exact ⟨log, log, [], .here, breaks, .here balanced, events, rfl⟩
termination_by (visit.rank, visit.task.size)
decreasing_by exact part.decreases

end Evaluation

open Evaluation

/-- The body of a program at the start of its run. -/
def Program.visit (program : Program) (environment : Environment) (setup : Setup) : Visit :=
  ⟨setup.limits.nesting setup.capacity, .body program.body, program.start environment setup⟩

/-- The event at the end of a run tells how it ended. -/
def Report.ending (report : Report) (span : Span) : Event :=
  .runEnd span report.steps report.deepest (report.outcome.toOption.any Completion.returning)
    report.outcome.isOk

theorem Report.of_events (span : Span) (result : EStateM.Result Halt Machine Completion) :
    (Report.of span result).events =
      (final result).events.reverse ++ [(Report.of span result).ending span] := by
  cases result <;> exact List.reverse_cons

namespace Program

variable {program : Program} {environment : Environment} {setup : Setup}

section Reports

variable {body : List Event} {result : EStateM.Result Halt Machine Completion}
  (logged : (program.start environment setup).Logged setup.limits (final result) body)
include logged

theorem events_of_logged :
    (Report.of program.span result).events =
      .runStart program.span ::
        (body ++ [(Report.of program.span result).ending program.span]) := by
  rw [Report.of_events, logged.events]
  simp [start]

/-- Inside a run there is neither a start nor an end of one. -/
theorem runs_of_logged :
    (Report.of program.span result).events.filter Event.isRun =
      [.runStart program.span, (Report.of program.span result).ending program.span] := by
  have inside : body.filter Event.isRun = [] := by
    rw [List.filter_eq_nil_iff]
    intro event member isRun
    have within := logged.within event member
    cases event <;> first | exact within | contradiction
  rw [events_of_logged logged, List.filter_cons_of_pos rfl, List.filter_append, inside]
  rfl

theorem depth_of_logged {span : Span} {function : Text} {depth : Nat}
    (member : .callStart span function depth ∈ body) (bounded : 0 < setup.limits.callDepth) :
    (depth : Int) ≤ setup.limits.callDepth := by
  have allowed : setup.limits.allowsDepth depth = true := logged.within _ member
  rcases Limits.allowsDepth_iff.mp allowed with unbounded | within
  · omega
  · exact within

theorem written_of_logged :
    (Report.of program.span result).written = body.filterMap Event.line? := by
  rw [Report.of_written, logged.written]
  simp [start]

end Reports

/-- The trace of every run: the events inside it, from its start to its end. -/
theorem run_disciplined (program : Program) (environment : Environment) (setup : Setup) :
    let report := program.run environment setup
    ∃ body, report.events = .runStart program.span :: (body ++ [report.ending program.span]) ∧
      report.events.filter Event.isRun = [.runStart program.span, report.ending program.span] ∧
      Event.Balanced 0 (body.filter Event.isCall) ∧
      (∀ span function (depth : Nat), .callStart span function depth ∈ body →
        0 < setup.limits.callDepth → (depth : Int) ≤ setup.limits.callDepth) ∧
      (∀ completion, report.outcome = .ok completion → Event.Balanced 0 body) ∧
      (∀ halt, report.outcome = .error halt → ∃ source broken before kept closing,
        Visits setup.limits (program.visit environment setup) source ∧
        source.Breaks setup.limits halt broken ∧
        broken.events.reverse = .runStart program.span :: before ∧ body = before ++ closing ∧
        Event.Interrupted 0 before kept closing ∧
        (∀ event ∈ closing, event.isCallEnd = true) ∧ Event.Balanced 0 (kept ++ closing)) ∧
      report.written = body.filterMap Event.line? := by
  rw [run_eq]
  unfold runWithin
  have trail := invoke_traced setup.limits (setup.limits.nesting setup.capacity + 1) program.body
    (program.start environment setup)
  have fails {halt : Halt} {after : Machine}
      (ended : program.result setup.limits (setup.limits.nesting setup.capacity)
        (program.start environment setup) = .error halt after) :
      (program.visit environment setup).Fails setup.limits halt after := ended
  change Trail _ _ (program.result _ _ _) at trail
  generalize program.result _ _ _ = result at trail fails ⊢
  cases trail with
  | @ok completion after log finished =>
      have logged : (program.start environment setup).Logged setup.limits
          (final (.ok completion after : EStateM.Result Halt Machine Completion)) log :=
        finished.toLogged
      refine ⟨log, events_of_logged logged, runs_of_logged logged, finished.balanced.calls,
        fun _ _ _ => depth_of_logged logged, fun _ _ => finished.balanced, fun halt same => ?_,
        written_of_logged logged⟩
      cases same
  | @error halt after log logged =>
      obtain ⟨source, broken, before, kept, closing, visits, breaks, interrupted, opened, closed⟩ :=
        (fails rfl).breaks
      have front : broken.events.reverse = .runStart program.span :: before := by
        simp [opened, visit, start]
      -- The log as a whole and the log up to the failure are those of one and the same run.
      have whole : log = before ++ closing := by
        have events := logged.events
        rw [closed, opened] at events
        simpa [visit, start] using (congrArg List.reverse events).symm
      have calls : Event.Balanced 0 (log.filter Event.isCall) := by
        rw [whole, List.filter_append, interrupted.calls, ← List.filter_append]
        exact interrupted.balanced.calls
      have logged' : (program.start environment setup).Logged setup.limits
          (final (.error halt after : EStateM.Result Halt Machine Completion)) log := logged
      refine ⟨log, events_of_logged logged', runs_of_logged logged', calls,
        fun _ _ _ => depth_of_logged logged', fun completion same => ?_, fun halt' same => ?_,
        written_of_logged logged'⟩
      · cases same
      · cases same
        exact ⟨source, broken, before, kept, closing, visits, breaks, front, whole, interrupted,
          interrupted.closing_isCallEnd, interrupted.balanced⟩

/-- A function that is declared, called, and reads a variable that nothing binds. -/
theorem run_disciplined_reading :
    let body := Block.mk .blank [.reference .blank (utf8 "z")]
    let program : Program := ⟨.blank, some (.mk .blank
      [.declaration .blank (utf8 "f") [] (some body), .call .blank (utf8 "f") []])⟩
    let report := program.run .empty (.standard ⟨1, 0, 0⟩)
    let call := Event.callStart .blank (utf8 "f") 1
    report.events.drop 3 = [.statementStart .blank, call, .statementStart .blank,
      .callEnd .blank (utf8 "f") 1, report.ending .blank] ∧
    ∃ halt source broken before kept closing, report.outcome = .error halt ∧
      Visits ⟨1, 0, 0⟩ (program.visit .empty (.standard ⟨1, 0, 0⟩)) source ∧
      source.Breaks ⟨1, 0, 0⟩ halt broken ∧ broken.events.reverse = .runStart .blank :: before ∧
      Event.Interrupted 0 before kept closing ∧ Event.Balanced 0 (kept ++ closing) := by
  intro body program report call
  have failed : report.outcome = .error (.fault ⟨.undefinedVariable (utf8 "z"), some .blank⟩) := rfl
  have events : report.events.drop 3 = [.statementStart .blank, call, .statementStart .blank,
      .callEnd .blank (utf8 "f") 1, report.ending .blank] := rfl
  obtain ⟨_, _, _, _, _, _, interrupts, _⟩ := run_disciplined program .empty (.standard ⟨1, 0, 0⟩)
  obtain ⟨source, broken, before, kept, closing, visits, breaks, front, _, interrupted, _,
    balanced⟩ := interrupts _ failed
  exact ⟨events, _, source, broken, before, kept, closing, failed, visits, breaks, front,
    interrupted, balanced⟩

-- The time is up at the third poll, in front of the statement of the function.
example :
    let body := Block.mk .blank [.number .blank 1]
    let program : Program := ⟨.blank, some (.mk .blank
      [.declaration .blank (utf8 "f") [] (some body), .call .blank (utf8 "f") []])⟩
    let report := program.run .empty ⟨⟨1, 0, 5⟩, .unlimited, .due 2 .elapsed, 1⟩
    report.outcome = .error (.fault ⟨.timeBudget 5, none⟩) ∧
      report.events.drop 3 = [.statementStart .blank, .callStart .blank (utf8 "f") 1,
        .callEnd .blank (utf8 "f") 1, report.ending .blank] := ⟨rfl, rfl⟩

end Program

end Parlance
