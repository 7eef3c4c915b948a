import Parlance.Proofs.Run.Interruption

namespace Parlance

/-!
Cancellation stops a run at the next statement, and does nothing else. Behind the
line at which the run is cancelled no statement starts, in no call.
-/

/-- Every statement starts behind fewer lines than that, by the events, the newest first. -/
def Event.StartWithin (count : Nat) (events : List Event) : Prop :=
  ∀ later span earlier, events = later ++ .statementStart span :: earlier →
    earlier.countP isPrint < count

namespace Event.StartWithin

variable {count : Nat} {event : Event} {events others : List Event}

theorem cons (within : StartWithin count events)
    (starts : event.startsStatement = true → events.countP isPrint < count) :
    StartWithin count (event :: events) := by
  intro later span earlier whole
  cases later with
  | nil =>
      cases whole
      exact starts rfl
  | cons first later => exact within later span earlier (List.cons.inj whole).2

theorem other (within : StartWithin count events) (plain : event.startsStatement = false) :
    StartWithin count (event :: events) :=
  within.cons fun starts => by rw [plain] at starts; cases starts

/-- Only the progress matters. -/
theorem of_progress (within : StartWithin count events)
    (same : events.filter isProgress = others.filter isProgress) : StartWithin count others := by
  intro later span earlier whole
  rw [whole, List.filter_append, List.filter_cons_of_pos rfl, List.filter_eq_append_iff] at same
  obtain ⟨later', rest, rfl, _, same⟩ := same
  obtain ⟨skipped, earlier', rfl, _, _, same⟩ := List.filter_eq_cons_iff.mp same
  have prints (events : List Event) :
      (events.filter isProgress).countP isPrint = events.countP isPrint := by
    rw [List.countP_filter]
    congr 1
    funext event
    cases event <;> rfl
  rw [← prints, ← same, prints]
  exact within (later' ++ skipped) span earlier' (List.append_assoc ..).symm

end Event.StartWithin

/-- The machine of a run that is cancelled behind a number of lines. -/
structure Machine.Guarded (count : Nat) (machine : Machine) : Prop where
  cancelled : machine.cancelled = decide (count ≤ machine.written.length)
  cancelIn : machine.outlet.cancelIn = some (count - machine.written.length)
  prints : machine.events.countP Event.isPrint = machine.written.length
  starts : Event.StartWithin count machine.events

namespace Machine.Guarded

variable {count : Nat} {machine : Machine}

theorem early (guarded : machine.Guarded count) {limits : Limits}
    (live : machine.stop? limits = none) : machine.written.length < count := by
  have running := guarded.cancelled.symm.trans (Machine.cancelled_of_live live)
  exact Nat.lt_of_not_le (of_decide_eq_false running)

theorem recorded (guarded : machine.Guarded count) (event : Event) (noPrint : event.isPrint = false)
    (starts : event.startsStatement = true → machine.written.length < count) :
    (machine.recorded event).Guarded count where
  cancelled := guarded.cancelled
  cancelIn := guarded.cancelIn
  prints := by
    rw [Machine.recorded, List.countP_cons_of_neg (by simp [noPrint])]
    exact guarded.prints
  starts := guarded.starts.cons (guarded.prints ▸ starts)

theorem other (guarded : machine.Guarded count) (event : Event) (noPrint : event.isPrint = false)
    (plain : event.startsStatement = false) : (machine.recorded event).Guarded count :=
  guarded.recorded event noPrint fun starts => by rw [plain] at starts; cases starts

theorem wrote (guarded : machine.Guarded count) (span : Span) (text : Text) :
    ((machine.wrote (text ++ [Text.newline])).recorded (.print span text)).Guarded count := by
  have armed : machine.armed count = machine := by
    obtain ⟨_, _, _, _, _, _, ⟨_, _, _⟩, _, _⟩ := machine
    simp only [Machine.armed, ← guarded.cancelled, ← guarded.cancelIn]
  have same := machine.armed_wrote count (text ++ [Text.newline])
  rw [armed] at same
  refine ⟨(congrArg Machine.cancelled same).symm, (congrArg (·.outlet.cancelIn) same).symm, ?_, ?_⟩
  · rw [Machine.recorded, List.countP_cons_of_pos rfl]
    exact congrArg (· + 1) guarded.prints
  · exact guarded.starts.other rfl

end Machine.Guarded

namespace Evaluation

variable {α β : Type} {limits : Limits} {count : Nat}

def Guards (count : Nat) (work : Eval α) : Prop :=
  ∀ machine : Machine, machine.Guarded count → (final (work machine)).Guarded count

namespace Guards

theorem bind {first : Eval α} {next : α → Eval β} (guards : Guards count first)
    (behind : ∀ result, Guards count (next result)) : Guards count (first >>= next) := by
  intro machine guarded
  have start := guards machine guarded
  cases ended : first machine with
  | ok result after =>
      rw [ended] at start
      rw [bind_of_ok ended]
      exact behind result after start
  | error halt after =>
      rw [ended] at start
      rw [bind_of_error ended]
      exact start

theorem lookup (name : Text) (span : Span) : Guards count (Machine.lookup name span) := by
  intro machine guarded
  cases found : machine.environment.get? name with
  | some value =>
      rw [Machine.lookup_of_some span found]
      exact guarded
  | none =>
      rw [Machine.lookup_of_none span found]
      exact guarded

theorem resolve (name : Text) (span : Span) {use : Function → Eval α}
    (behind : ∀ function, Guards count (use function)) : Guards count (resolve name span use) := by
  intro machine guarded
  cases found : machine.environment.function? name with
  | some function =>
      rw [resolve_of_some span use found]
      exact behind function machine guarded
  | none =>
      rw [resolve_of_none span use found]
      exact guarded

theorem print (span : Span) (text : Text) : Guards count (print span text) := by
  intro machine guarded
  unfold Evaluation.print
  by_cases full : machine.outlet.room = some 0
  · rw [bind_of_error (Machine.write_of_full span text full)]
    exact guarded
  · rw [bind_of_ok (Machine.write_of_room span text full)]
    exact guarded.wrote span text

theorem call {enter : Enter} (entering : ∀ body, Guards count (enter body)) (span : Span)
    (function : Function) (name : Text) (arguments : List Value) :
    Guards count (Machine.call limits enter span function name arguments) := by
  intro machine guarded
  cases allowed : limits.allowsDepth (machine.depth + 1) with
  | true =>
      rw [Machine.call_of_allowed enter span function name arguments allowed, final_returned]
      have starts := guarded.other (.callStart span name (machine.depth + 1)) rfl rfl
      have inside := entering function.body (machine.entered span function name arguments)
        ⟨starts.cancelled, starts.cancelIn, starts.prints, starts.starts⟩
      generalize final (enter function.body _) = after at inside ⊢
      have ends := inside.other (.callEnd span name after.depth) rfl rfl
      exact ⟨ends.cancelled, ends.cancelIn, ends.prints, ends.starts⟩
  | false =>
      rw [Machine.call_of_refused enter span function name arguments allowed]
      exact ⟨guarded.cancelled, guarded.cancelIn, guarded.prints, guarded.starts⟩

/-- A statement starts only as long as fewer lines have been written. -/
theorem step (span : Span) {work : Eval Completion} {next : Completion → Eval Completion}
    (guards : Guards count work) (behind : ∀ completion, Guards count (next completion)) :
    Guards count (step limits span work next) := by
  intro machine guarded
  have stepped : machine.stepped.Guarded count :=
    ⟨guarded.cancelled, guarded.cancelIn, guarded.prints, guarded.starts⟩
  have inside (live : machine.stop? limits = none) :=
    guards (machine.started span)
      (stepped.recorded (.statementStart span) rfl fun _ => guarded.early live)
  have ways := step_stepped limits span work next machine
  generalize Evaluation.step limits span work next machine = result at ways ⊢
  cases ways with
  | stopped => exact guarded
  | refused => exact stepped
  | failed live _ ended =>
      have left := inside live
      rwa [ended] at left
  | returned live _ ended =>
      have left := inside live
      rw [ended] at left
      exact left.other (.statementEnd span) rfl rfl
  | wentOn live _ ended =>
      have left := inside live
      rw [ended] at left
      exact behind _ _ (left.other (.statementEnd span) rfl rfl)

end Guards

theorem guards_corresponds (limits limits' : Limits) {enter : Enter} (enter' : Enter)
    (entering : ∀ body, Guards count (enter body)) :
    Corresponds limits limits' enter enter' (fun _ work _ => Guards count work)
      (fun work _ => Guards count work) where
  value _ _ guarded := guarded
  bind := .bind
  fail _ _ _ guarded := guarded
  lookup := .lookup
  resolve name span _ _ := .resolve name span
  assign _ _ _ guarded := ⟨guarded.cancelled, guarded.cancelIn, guarded.prints, guarded.starts⟩
  define _ _ guarded := ⟨guarded.cancelled, guarded.cancelIn, guarded.prints, guarded.starts⟩
  print := .print
  call := .call entering
  branch := id
  finish _ _ guarded := guarded
  step span _ _ _ _ := .step span

theorem invoke_guards (limits : Limits) (nesting : Nat) (body : Option Block) :
    Guards count (invoke limits nesting body) := by
  induction nesting generalizing body with
  | zero => exact fun machine guarded => guarded
  | succ nesting inductionHypothesis =>
      exact (guards_corresponds limits limits (invoke limits nesting)
        inductionHypothesis).ofOptionalBlock body

end Evaluation

open Evaluation

/-- The same run, cancelled right behind a number of lines. -/
def Setup.cancelledBehind (setup : Setup) (count : Nat) : Setup :=
  { setup with outlet := { setup.outlet with cancelIn := some count } }

theorem Event.startWithin_nil (count : Nat) : StartWithin count [] := by
  intro later span earlier whole
  cases later <;> cases whole

theorem Report.of_armed (span : Span) (count : Nat)
    (result : EStateM.Result Halt Machine Completion) :
    Report.of span (armedResult count result) = Report.of span result := by
  cases result <;> rfl

namespace Program

variable (program : Program) (environment : Environment)

/-- The run comes to the start of a statement behind a number of lines. -/
structure ComesBehind (setup : Setup) (count : Nat) (bindings : Environment) (point : Machine) :
    Prop where
  starts : Starts setup.limits (program.visit environment setup) bindings point
  late : count ≤ point.written.length

theorem run_of_cancelled (setup : Setup) (nonempty : program.statements ≠ []) :
    program.run environment { setup with signal := .cancelled } =
      ⟨.error .cancelled, environment, 0, 0, [],
        [.runStart program.span, .runEnd program.span 0 0 false false]⟩ := by
  obtain ⟨span, body⟩ := program
  match body with
  | none => contradiction
  | some (.mk _ []) => contradiction
  | some (.mk place (node :: nodes)) =>
      let machine := Program.start ⟨span, some (.mk place (node :: nodes))⟩ environment
        { setup with signal := .cancelled }
      have cancelled : machine.signal = .cancelled := by
        simp [machine, start, Setup.initialSignal]
      have stopped : machine.stop? setup.limits = some .cancelled := by
        rw [Machine.stop?, cancelled]
        rfl
      have ended : Evaluation.statements setup.limits
          (invoke setup.limits (setup.limits.nesting setup.capacity)) (.normal .nothing)
          (node :: nodes) machine = .error .cancelled machine := by
        rw [statements_cons]
        exact step_of_stopped stopped
      rw [run_eq, runWithin]
      exact congrArg (Report.of span) ended

section Armed

variable {program environment} {setup : Setup} {count : Nat}

theorem start_free (untimed : setup.limits.time ≤ 0) (live : setup.signal = .live)
    (steady : setup.outlet.cancelIn = none) : (program.start environment setup).Free :=
  ⟨(Setup.initialSignal_of_untimed untimed).trans live, rfl, steady⟩

theorem start_cancelledBehind (positive : 0 < count) :
    program.start environment (setup.cancelledBehind count) =
      (program.start environment setup).armed count := by
  have early : decide (count ≤ (program.start environment setup).written.length) = false :=
    decide_eq_false (Nat.not_le_of_lt positive)
  rw [Machine.armed, early]
  rfl

theorem start_guarded (positive : 0 < count) :
    (program.start environment (setup.cancelledBehind count)).Guarded count := by
  rw [start_cancelledBehind positive]
  exact ⟨rfl, rfl, rfl, (Event.startWithin_nil count).other rfl⟩

theorem run_cancelledBehind (positive : 0 < count) :
    program.run environment (setup.cancelledBehind count) =
      .of program.span (program.result setup.limits (setup.limits.nesting setup.capacity)
        ((program.start environment setup).armed count)) := by
  rw [run_eq, runWithin, start_cancelledBehind positive]
  rfl

theorem run_starts_within (positive : 0 < count) :
    Event.StartWithin count
      (program.run environment (setup.cancelledBehind count)).events.reverse := by
  have guarded := invoke_guards setup.limits (setup.limits.nesting setup.capacity + 1) program.body
    (program.start environment (setup.cancelledBehind count))
    (start_guarded positive)
  rw [run_eq, runWithin, Report.of_events, List.reverse_append, List.reverse_reverse]
  exact guarded.starts.other rfl

end Armed

section Compared

variable {program environment} {setup : Setup} {count : Nat}
  (free : (program.start environment setup).Free)
include free

/-- The two runs do the same, or the second one is given up. -/
theorem result_armed :
    let result := program.result setup.limits (setup.limits.nesting setup.capacity)
    let machine := program.start environment setup
    result (machine.armed count) = armedResult count (result machine) ∨
      ∃ bindings point after, GivesUp setup.limits count (program.visit environment setup)
          (final (result machine)) bindings point after ∧
        result (machine.armed count) = .error .cancelled after :=
  ((obeys_walk setup.limits count).does (program.visit environment setup) free).2

/-- A run that comes to a statement behind the lines cannot do the same when it is cancelled. -/
theorem not_comesBehind_of_same {bindings : Environment} {point : Machine}
    (comes : program.ComesBehind environment setup count bindings point) :
    let result := program.result setup.limits (setup.limits.nesting setup.capacity)
    let machine := program.start environment setup
    result (machine.armed count) ≠ armedResult count (result machine) := by
  intro result machine same
  obtain ⟨⟨nesting, last, node, nodes, reaches⟩, late⟩ := comes
  obtain ⟨after, failed⟩ := reaches.visits.gaveUp free rfl late
  have undisturbed : Undisturbed machine (result machine) :=
    ((obeys_walk setup.limits count).does (program.visit environment setup) free).1
  have cancelled : armedResult count (result machine) = .error .cancelled after :=
    same.symm.trans failed
  cases ended : result machine with
  | ok completion after =>
      rw [ended] at cancelled
      cases cancelled
  | error halt after =>
      rw [ended] at cancelled
      cases cancelled
      exact undisturbed.other after ended

end Compared

/-- Compares a run with the same run when it is cancelled behind a number of lines. If it comes to
the start of a statement behind these lines, the cancelled run fails at the first such start: it has
printed the same lines, the environment is the one outside all calls at this point, and the same
statements, calls and prints are in its trace. Otherwise the two runs are the same in all respects.
No statement starts behind the line at which the run is cancelled, and a run that is cancelled
before it starts does nothing at all. -/
theorem run_cancelled (setup : Setup) {count : Nat} (positive : 0 < count)
    (untimed : setup.limits.time ≤ 0) (live : setup.signal = .live)
    (steady : setup.outlet.cancelIn = none) :
    let whole := program.run environment setup
    let cut := program.run environment (setup.cancelledBehind count)
    ((∃ bindings point, program.ComesBehind environment setup count bindings point) →
      ∃ bindings point, program.ComesBehind environment setup count bindings point ∧
        Event.StartWithin count point.events ∧
        point.written.reverse <+: whole.written ∧ point.events.reverse <+: whole.events ∧
        cut.outcome = .error .cancelled ∧ cut.written = point.written.reverse ∧
        cut.environment = bindings ∧
        cut.events.filter Event.isProgress = point.events.reverse.filter Event.isProgress) ∧
    ((¬ ∃ bindings point, program.ComesBehind environment setup count bindings point) →
      cut = whole) ∧
    Event.StartWithin count cut.events.reverse ∧
    (program.statements ≠ [] → program.run environment { setup with signal := .cancelled } =
      ⟨.error .cancelled, environment, 0, 0, [],
        [.runStart program.span, .runEnd program.span 0 0 false false]⟩) := by
  intro whole cut
  have free : (program.start environment setup).Free := start_free untimed live steady
  have wholeIs : whole = .of program.span _ := program.run_eq environment setup
  have cutIs : cut = .of program.span _ := run_cancelledBehind positive
  have within : Event.StartWithin count cut.events.reverse := run_starts_within positive
  refine ⟨fun comes => ?_, fun never => ?_, within, program.run_of_cancelled environment setup⟩
  · obtain ⟨bindings, point, comes⟩ := comes
    have stopped := (result_armed free).resolve_left (not_comesBehind_of_same free comes)
    obtain ⟨bindings, point, after, givesUp, stopped⟩ := stopped
    rw [stopped] at cutIs
    have events : cut.events.filter Event.isProgress =
        point.events.reverse.filter Event.isProgress := by
      rw [cutIs, Report.of_events, List.filter_append, List.filter_reverse, List.filter_reverse]
      exact (List.append_nil _).trans (congrArg List.reverse givesUp.events)
    refine ⟨bindings, point, ⟨givesUp.starts, givesUp.late⟩, ?_, ?_, ?_, ?_, ?_, ?_, events⟩
    · refine within.of_progress ?_
      rw [List.filter_reverse, events, List.filter_reverse, List.reverse_reverse]
    · rw [wholeIs, Report.of_written]
      exact List.reverse_prefix.mpr givesUp.before.written
    · rw [wholeIs, Report.of_events]
      exact (List.reverse_prefix.mpr givesUp.before.events).trans (List.prefix_append ..)
    · rw [cutIs]
      rfl
    · rw [cutIs, Report.of_written]
      exact congrArg List.reverse givesUp.written
    · rw [cutIs, Report.of_environment]
      exact givesUp.environment
  · rcases @result_armed program environment setup count free with
      same | ⟨bindings, point, after, givesUp, _⟩
    · rw [cutIs, wholeIs, same, Report.of_armed]
    · exact absurd ⟨bindings, point, givesUp.starts, givesUp.late⟩ never

/-- A function prints a variable and then sets it: cancelled behind the line, the run stops in front
of the assignment, and outside of the call nothing is assigned. -/
theorem run_cancelled_inside :
    let x : Node := .reference .blank (utf8 "x")
    let body := Block.mk .blank [.unary .blank .print x,
      .binary .blank .assign x (.number .blank 2), .unary .blank .print x]
    let program : Program := ⟨.blank, some (.mk .blank [
      .declaration .blank (utf8 "f") [] (some body),
      .binary .blank .assign x (.number .blank 1), .call .blank (utf8 "f") []])⟩
    let setup := Setup.standard .none
    let cut := program.run .empty (setup.cancelledBehind 1)
    (program.run .empty setup).written = [utf8 "1\n", utf8 "2\n"] ∧
      (∃ point, program.ComesBehind .empty setup 1 cut.environment point ∧
        cut.written = point.written.reverse) ∧
      cut.outcome = .error .cancelled ∧ cut.written = [utf8 "1\n"] ∧
      cut.environment.get? (utf8 "x") = some (.int 1) ∧
      Event.StartWithin 1 cut.events.reverse := by
  intro x body program setup cut
  obtain ⟨stops, goesOn, within, _⟩ :=
    program.run_cancelled .empty setup Nat.one_pos (Int.le_refl 0) rfl rfl
  have cancelled : cut.outcome = .error .cancelled := rfl
  have succeeded : (program.run .empty setup).outcome = .ok (.normal .nothing) := rfl
  -- Otherwise the two runs would be the same.
  have comes : ∃ bindings point, program.ComesBehind .empty setup 1 bindings point := by
    apply Classical.byContradiction
    intro never
    rw [← goesOn never] at succeeded
    cases succeeded
  obtain ⟨bindings, point, behind, _, _, _, _, written, rfl, _⟩ := stops comes
  exact ⟨by decide +kernel, ⟨point, behind, written⟩, cancelled, by decide +kernel,
    by decide +kernel, within⟩

end Program

end Parlance
