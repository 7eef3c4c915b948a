import Parlance.Proofs.Run.Path

namespace Parlance

/-!
Runs that are cancelled behind a number of lines. Up to the first statement that
would start behind these lines, such a run does what it would do anyway; at this
statement it stops, and on the way out of it only calls are closed. It goes by
the places that the other run comes to, so both are walked through together.
-/

/-- How a cancelled run ends. -/
abbrev Halt.cancelled : Halt := .fault ⟨.cancelled, none⟩

/-- Something has begun or has been printed. -/
def Event.isProgress : Event → Bool
  | .statementStart _ | .callStart .. | .print .. => true
  | _ => false

namespace Machine

/-- Nothing has interrupted the run, and no write is going to. -/
structure Free (machine : Machine) : Prop where
  signal : machine.signal = .live
  cancelled : machine.cancelled = false
  outlet : machine.outlet.cancelIn = none

/-- The machine as it would be in a run that is cancelled behind a number of lines. -/
def armed (count : Nat) (machine : Machine) : Machine :=
  { machine with
    outlet := { machine.outlet with cancelIn := some (count - machine.written.length) }
    cancelled := count ≤ machine.written.length }

/-- All lines and events of the first machine are still there. -/
structure Extends (before after : Machine) : Prop where
  written : before.written <:+ after.written
  events : before.events <:+ after.events

namespace Extends

variable {first second third : Machine}

theorem refl (machine : Machine) : machine.Extends machine :=
  ⟨List.suffix_refl _, List.suffix_refl _⟩

theorem trans (grows : first.Extends second) (grows' : second.Extends third) :
    first.Extends third :=
  ⟨grows.written.trans grows'.written, grows.events.trans grows'.events⟩

theorem recorded (machine : Machine) (event : Event) : machine.Extends (machine.recorded event) :=
  ⟨List.suffix_refl _, List.suffix_cons ..⟩

theorem started (machine : Machine) (span : Span) : machine.Extends (machine.started span) :=
  ⟨List.suffix_refl _, List.suffix_cons ..⟩

theorem entered (machine : Machine) (span : Span) (function : Function) (name : Text)
    (arguments : List Value) : machine.Extends (machine.entered span function name arguments) :=
  ⟨List.suffix_refl _, List.suffix_cons ..⟩

theorem left (caller : Machine) (span : Span) (name : Text) (after : Machine) :
    after.Extends (caller.left span name after) :=
  ⟨List.suffix_refl _, List.suffix_cons ..⟩

theorem wrote (machine : Machine) (line : Text) : machine.Extends (machine.wrote line) :=
  ⟨List.suffix_cons .., List.suffix_refl _⟩

end Extends

variable {machine : Machine}

theorem stop?_of_signal (live : machine.signal = .live) (limits : Limits) :
    machine.stop? limits = if machine.cancelled then some .cancelled else none := by
  rw [stop?, live]
  rfl

theorem Free.live (free : machine.Free) {limits : Limits} : machine.stop? limits = none := by
  rw [stop?_of_signal free.signal, free.cancelled]
  rfl

/-- It depends on nothing else of a machine. -/
theorem Free.of_same {other : Machine} (free : machine.Free) (signal : other.signal = machine.signal)
    (cancelled : other.cancelled = machine.cancelled) (outlet : other.outlet = machine.outlet) :
    other.Free := by
  refine ⟨signal.trans free.signal, cancelled.trans free.cancelled, ?_⟩
  rw [outlet]
  exact free.outlet

theorem Free.wrote (free : machine.Free) (line : Text) : (machine.wrote line).Free := by
  refine ⟨free.signal, ?_, ?_⟩
  · simp [Machine.wrote, free.cancelled, free.outlet]
  · simp [Machine.wrote, afterWrite, free.outlet]

theorem armed_wrote (count : Nat) (machine : Machine) (line : Text) :
    (machine.wrote line).armed count = (machine.armed count).wrote line := by
  have rest : count - (machine.written.length + 1) = count - machine.written.length - 1 := by omega
  -- The write that is counted down to is the one that makes up the number of lines.
  have cancelled : decide (count ≤ machine.written.length + 1) =
      (decide (count ≤ machine.written.length) ||
        some (count - machine.written.length) == some 1) := by
    rw [Bool.eq_iff_iff, Bool.or_eq_true, decide_eq_true_iff, decide_eq_true_iff, beq_iff_eq,
      Option.some.injEq]
    omega
  simp only [wrote, armed, afterWrite, List.length_cons, Option.map_some, rest, ← cancelled]
  rfl

theorem Free.stopped_armed (free : machine.Free) {limits : Limits} {count : Nat}
    (late : count ≤ machine.written.length) :
    (machine.armed count).stop? limits = some .cancelled := by
  have live : (machine.armed count).signal = .live := free.signal
  have cancelled : (machine.armed count).cancelled = true := decide_eq_true late
  rw [stop?_of_signal live, cancelled]
  rfl

theorem Free.live_armed (free : machine.Free) {limits : Limits} {count : Nat}
    (early : ¬ count ≤ machine.written.length) : (machine.armed count).stop? limits = none := by
  have live : (machine.armed count).signal = .live := free.signal
  have running : (machine.armed count).cancelled = false := decide_eq_false early
  rw [stop?_of_signal live, running]
  rfl

end Machine

namespace Evaluation

variable {α β : Type} {limits : Limits} {count : Nat}

def armedResult (count : Nat) : EStateM.Result Halt Machine α → EStateM.Result Halt Machine α
  | .ok result after => .ok result (after.armed count)
  | .error halt after => .error halt (after.armed count)

/-- The way to a place, with the environment that is back when the evaluation is given up there:
the one from which the outermost open call was made, or else the one at the place. -/
inductive Reaches (limits : Limits) : Visit → Environment → Visit → Prop
  | here {visit : Visit} : Reaches limits visit visit.machine.environment visit
  | part {whole inner visit : Visit} {opening : Opening} {bindings : Environment}
      (part : Part limits whole opening inner) (noCall : ∀ span name, opening ≠ .call span name)
      (behind : Reaches limits inner bindings visit) : Reaches limits whole bindings visit
  | call {nesting : Nat} {machine after : Machine} {span : Span} {name : Text} {nodes : List Node}
      {function : Function} {values : List Value} {visit : Visit}
      (found : machine.environment.function? name = some function)
      (matching : nodes.length = function.parameters.length)
      (evaluated : expressions limits (invoke limits nesting) nodes machine = .ok values after)
      (allowed : limits.allowsDepth (after.depth + 1) = true)
      (behind : Visits limits
        ⟨nesting, .invocation function.body, after.entered span function name values⟩ visit) :
      Reaches limits ⟨nesting, .expression (.call span name nodes), machine⟩ after.environment visit

theorem Reaches.visits {whole visit : Visit} {bindings : Environment}
    (reaches : Reaches limits whole bindings visit) : Visits limits whole visit := by
  induction reaches with
  | here => exact .here
  | part part _ _ inductionHypothesis => exact .part part inductionHypothesis
  | call found matching evaluated allowed behind =>
      exact .part (.called found matching evaluated allowed) behind

/-- The evaluation comes to the start of a statement on this machine. -/
def Starts (limits : Limits) (whole : Visit) (bindings : Environment) (point : Machine) : Prop :=
  ∃ nesting last node nodes,
    Reaches limits whole bindings ⟨nesting, .statements last (node :: nodes), point⟩

/-- What a run that is not cancelled does. -/
structure Undisturbed (machine : Machine) (result : EStateM.Result Halt Machine α) : Prop where
  free : (final result).Free
  grows : machine.Extends (final result)
  other (after : Machine) : result ≠ .error .cancelled after

/-- The cancelled run has been given up at the start of a statement that the other run comes to on
its way to `left`. It has left what was there at this point. -/
structure GivesUp (limits : Limits) (count : Nat) (whole : Visit) (left : Machine)
    (bindings : Environment) (point after : Machine) : Prop where
  starts : Starts limits whole bindings point
  late : count ≤ point.written.length
  before : point.Extends left
  written : after.written = point.written
  environment : after.environment = bindings
  events : after.events.filter Event.isProgress = point.events.filter Event.isProgress

section Returns

variable {caller : Machine} {span : Span} {function : Function} {name : Text}
  {arguments : List Value} {result : EStateM.Result Halt Machine Completion}

theorem final_returned :
    final (caller.returned span name result) = caller.left span name (final result) := by
  cases result <;> rfl

theorem armedResult_returned : (caller.armed count).returned span name (armedResult count result) =
    armedResult count (caller.returned span name result) := by
  cases result <;> rfl

theorem Undisturbed.returned
    (undisturbed : Undisturbed (caller.entered span function name arguments) result) :
    Undisturbed caller (caller.returned span name result) where
  free := by
    rw [final_returned]
    exact undisturbed.free.of_same rfl rfl rfl
  grows := by
    rw [final_returned]
    exact ((Machine.Extends.entered ..).trans undisturbed.grows).trans (.left ..)
  other after same := by
    cases result with
    | ok completion inside => cases same
    | error halt inside =>
        cases same
        exact undisturbed.other inside rfl

end Returns

theorem Undisturbed.step {machine : Machine} {span : Span} {work : Eval Completion}
    {next : Completion → Eval Completion} (free : machine.Free)
    (inside : limits.allowsSteps (machine.steps + 1) = true →
      Undisturbed (machine.started span) (work (machine.started span)))
    (behind : ∀ completion after, limits.allowsSteps (machine.steps + 1) = true →
      work (machine.started span) = .ok completion after → completion.returning = false →
      (after.recorded (.statementEnd span)).Free →
      Undisturbed (after.recorded (.statementEnd span))
        (next completion (after.recorded (.statementEnd span)))) :
    Undisturbed machine (step limits span work next machine) := by
  have ways := step_stepped limits span work next machine
  generalize Evaluation.step limits span work next machine = result at ways ⊢
  cases ways with
  | stopped interrupted =>
      rw [free.live] at interrupted
      cases interrupted
  | refused =>
      exact ⟨free.of_same rfl rfl rfl, ⟨List.suffix_refl _, List.suffix_refl _⟩, by simp⟩
  | failed live allowed ended =>
      have started := inside allowed
      rw [ended] at started
      refine ⟨started.free, (Machine.Extends.started ..).trans started.grows, fun other same => ?_⟩
      cases same
      exact started.other _ rfl
  | returned live allowed ended =>
      have started := inside allowed
      rw [ended] at started
      exact ⟨started.free.of_same rfl rfl rfl,
        ((Machine.Extends.started ..).trans started.grows).trans (.recorded ..), by simp⟩
  | @wentOn completion after live allowed ended goesOn =>
      have started := inside allowed
      rw [ended] at started
      have rest := behind completion after allowed ended goesOn
        (started.free.of_same rfl rfl rfl)
      have grows : machine.Extends (after.recorded (.statementEnd span)) :=
        ((Machine.Extends.started ..).trans started.grows).trans (.recorded ..)
      exact { rest with grows := grows.trans rest.grows }

/-- Cancelled behind a number of lines, the work does the same or is given up. -/
def Obeys (limits : Limits) (count : Nat) (whole : Visit) (machine : Machine) (work : Eval α) :
    Prop :=
  machine.Free → Undisturbed machine (work machine) ∧
    (work (machine.armed count) = armedResult count (work machine) ∨
      ∃ bindings point after,
        GivesUp limits count whole (final (work machine)) bindings point after ∧
          work (machine.armed count) = .error .cancelled after)

section Walks

variable {whole inner : Visit} {opening : Opening} {machine left left' : Machine}
  {bindings : Environment} {point after : Machine}

theorem GivesUp.further (givesUp : GivesUp limits count whole left bindings point after)
    (grows : left.Extends left') : GivesUp limits count whole left' bindings point after :=
  { givesUp with before := givesUp.before.trans grows }

theorem GivesUp.ofPart (part : Part limits whole opening inner)
    (noCall : ∀ span name, opening ≠ .call span name)
    (givesUp : GivesUp limits count inner left bindings point after) :
    GivesUp limits count whole left bindings point after := by
  obtain ⟨nesting, last, node, nodes, reaches⟩ := givesUp.starts
  exact { givesUp with starts := ⟨nesting, last, node, nodes, .part part noCall reaches⟩ }

namespace Obeys

/-- Work that has nothing to do with interruptions. -/
theorem of_results {work : Eval α} {result : EStateM.Result Halt Machine α}
    (ended : work machine = result)
    (armed : work (machine.armed count) = armedResult count result)
    (undisturbed : machine.Free → Undisturbed machine result) :
    Obeys limits count whole machine work := by
  intro free
  rw [ended]
  exact ⟨undisturbed free, .inl armed⟩

theorem value (result : α) : Obeys limits count whole machine (pure result : Eval α) :=
  .of_results rfl rfl fun free => ⟨free, .refl machine, fun _ same => by cases same⟩

theorem fail (cause : Cause) (span : Span) :
    Obeys limits count whole machine (Machine.fail cause span : Eval α) :=
  .of_results rfl rfl fun free => ⟨free, .refl machine, fun _ same => by cases same⟩

theorem lookup (name : Text) (span : Span) :
    Obeys limits count whole machine (Machine.lookup name span) := by
  cases found : machine.environment.get? name with
  | some value =>
      have armed : (machine.armed count).environment.get? name = some value := found
      exact .of_results (Machine.lookup_of_some span found) (Machine.lookup_of_some span armed)
        fun free => ⟨free, .refl machine, by simp⟩
  | none =>
      have armed : (machine.armed count).environment.get? name = none := found
      exact .of_results (Machine.lookup_of_none span found) (Machine.lookup_of_none span armed)
        fun free => ⟨free, .refl machine, by simp⟩

theorem resolve (name : Text) (span : Span) {use : Function → Eval α}
    (obeys : ∀ function, machine.environment.function? name = some function →
      Obeys limits count whole machine (use function)) :
    Obeys limits count whole machine (resolve name span use) := by
  cases found : machine.environment.function? name with
  | some function =>
      have armed : (machine.armed count).environment.function? name = some function := found
      unfold Obeys
      rw [resolve_of_some span use found, resolve_of_some span use armed]
      exact obeys function found
  | none =>
      have armed : (machine.armed count).environment.function? name = none := found
      exact .of_results (resolve_of_none span use found) (resolve_of_none span use armed)
        fun free => ⟨free, .refl machine, by simp⟩

theorem print (span : Span) (text : Text) :
    Obeys limits count whole machine (print span text) := by
  unfold Evaluation.print
  by_cases full : machine.outlet.room = some 0
  · have armed : (machine.armed count).outlet.room = some 0 := full
    exact .of_results (bind_of_error (Machine.write_of_full span text full))
      (bind_of_error (Machine.write_of_full span text armed))
      fun free => ⟨free, .refl machine, by simp⟩
  · have armed : (machine.armed count).outlet.room ≠ some 0 := full
    refine .of_results (bind_of_ok (Machine.write_of_room span text full)) ?_ fun free => ?_
    · rw [bind_of_ok (Machine.write_of_room span text armed), ← Machine.armed_wrote]
      rfl
    · have wrote := free.wrote (text ++ [Text.newline])
      exact ⟨wrote.of_same rfl rfl rfl, (Machine.Extends.wrote ..).trans (.recorded ..),
        fun _ same => by cases same⟩

theorem bind {first : Eval α} {next : α → Eval β} (obeys : Obeys limits count whole machine first)
    (behind : ∀ result after, first machine = .ok result after →
      Obeys limits count whole after (next result)) :
    Obeys limits count whole machine (first >>= next) := by
  intro free
  obtain ⟨undisturbed, compared⟩ := obeys free
  cases ended : first machine with
  | error halt after =>
      rw [ended] at undisturbed compared
      rw [bind_of_error ended]
      refine ⟨⟨undisturbed.free, undisturbed.grows, fun other same => ?_⟩, ?_⟩
      · cases same
        exact undisturbed.other after rfl
      · rcases compared with same | ⟨bindings, point, after', givesUp, stopped⟩
        · exact .inl (bind_of_error same)
        · exact .inr ⟨bindings, point, after', givesUp, bind_of_error stopped⟩
  | ok result after =>
      rw [ended] at undisturbed compared
      obtain ⟨undisturbed', compared'⟩ := behind result after ended undisturbed.free
      rw [bind_of_ok ended]
      refine ⟨{ undisturbed' with grows := undisturbed.grows.trans undisturbed'.grows }, ?_⟩
      rcases compared with same | ⟨bindings, point, after', givesUp, stopped⟩
      · rw [bind_of_ok same]
        exact compared'
      · exact .inr ⟨bindings, point, after', givesUp.further undisturbed'.grows,
          bind_of_error stopped⟩

theorem ofPart {work : Eval α} (part : Part limits whole opening inner)
    (noCall : ∀ span name, opening ≠ .call span name)
    (obeys : Obeys limits count inner machine work) : Obeys limits count whole machine work := by
  intro free
  obtain ⟨undisturbed, compared⟩ := obeys free
  refine ⟨undisturbed, compared.imp_right ?_⟩
  rintro ⟨bindings, point, after, givesUp, stopped⟩
  exact ⟨bindings, point, after, givesUp.ofPart part noCall, stopped⟩

/-- On the way out of a call the bindings of its caller are back, and that it ends is no
progress. -/
theorem call {nesting : Nat} {machine after : Machine} {span : Span} {name : Text}
    {nodes : List Node} {function : Function} {values : List Value}
    (found : machine.environment.function? name = some function)
    (matching : nodes.length = function.parameters.length)
    (evaluated : expressions limits (invoke limits nesting) nodes machine = .ok values after)
    (obeys : limits.allowsDepth (after.depth + 1) = true →
      let inner := after.entered span function name values
      Obeys limits count ⟨nesting, .invocation function.body, inner⟩ inner
        (invoke limits nesting function.body)) :
    Obeys limits count ⟨nesting, .expression (.call span name nodes), machine⟩ after
      (Machine.call limits (invoke limits nesting) span function name values) := by
  cases allowed : limits.allowsDepth (after.depth + 1) with
  | false =>
      have armed : limits.allowsDepth ((after.armed count).depth + 1) = false := allowed
      exact .of_results (Machine.call_of_refused _ _ _ _ _ allowed)
        (Machine.call_of_refused _ _ _ _ _ armed)
        fun free =>
          ⟨free.of_same rfl rfl rfl, ⟨List.suffix_refl _, List.suffix_refl _⟩, by simp⟩
  | true =>
      intro free
      have armed : limits.allowsDepth ((after.armed count).depth + 1) = true := allowed
      obtain ⟨undisturbed, compared⟩ := obeys allowed (free.of_same rfl rfl rfl)
      rw [Machine.call_of_allowed _ _ _ _ _ allowed, Machine.call_of_allowed _ _ _ _ _ armed]
      have entered : (after.armed count).entered span function name values =
          (after.entered span function name values).armed count := rfl
      rw [entered]
      generalize invoke limits nesting function.body (after.entered span function name values) =
        result at undisturbed compared
      refine ⟨undisturbed.returned, ?_⟩
      rcases compared with same | ⟨bindings, point, after', givesUp, stopped⟩
      · rw [same, armedResult_returned]
        exact .inl rfl
      · obtain ⟨nesting', last, node, nodes', reaches⟩ := givesUp.starts
        have starts := Reaches.call found matching evaluated allowed reaches.visits
        have before := givesUp.before.trans (.left after span name (final result))
        rw [← final_returned] at before
        rw [stopped]
        exact .inr ⟨after.environment, point, (after.armed count).left span name after',
          ⟨⟨nesting', last, node, nodes', starts⟩, givesUp.late, before, givesUp.written, rfl,
            givesUp.events⟩, rfl⟩

/-- At the start of a statement behind the lines the cancelled run is given up, and the other one
goes on. -/
theorem step {nesting : Nat} {machine : Machine} {last : Completion} {node : Node}
    {nodes : List Node}
    (obeys : machine.stop? limits = none → limits.allowsSteps (machine.steps + 1) = true →
      let inner := machine.started node.span
      Obeys limits count ⟨nesting, .statement node, inner⟩ inner
        (statement limits (invoke limits nesting) node))
    (behind : ∀ completion after, machine.stop? limits = none →
      limits.allowsSteps (machine.steps + 1) = true →
      statement limits (invoke limits nesting) node (machine.started node.span) =
        .ok completion after →
      completion.returning = false →
      let inner := after.recorded (.statementEnd node.span)
      Obeys limits count ⟨nesting, .statements last (node :: nodes), machine⟩ inner
        (statements limits (invoke limits nesting) completion nodes)) :
    Obeys limits count ⟨nesting, .statements last (node :: nodes), machine⟩ machine
      (statements limits (invoke limits nesting) last (node :: nodes)) := by
  rw [statements_cons]
  intro free
  have started : (machine.started node.span).Free := free.of_same rfl rfl rfl
  have undisturbed : Undisturbed machine (Evaluation.step limits node.span
      (statement limits (invoke limits nesting) node)
      (fun completion => statements limits (invoke limits nesting) completion nodes) machine) :=
    .step free (fun allowed => (obeys free.live allowed started).1)
      fun completion after allowed ended goesOn freed =>
        (behind completion after free.live allowed ended goesOn freed).1
  refine ⟨undisturbed, ?_⟩
  by_cases late : count ≤ machine.written.length
  · exact .inr ⟨machine.environment, machine, machine.armed count,
      ⟨⟨nesting, last, node, nodes, .here⟩, late, undisturbed.grows, rfl, rfl, rfl⟩,
      step_of_stopped (free.stopped_armed late)⟩
  · have live : (machine.armed count).stop? limits = none := free.live_armed late
    cases allowed : limits.allowsSteps (machine.steps + 1) with
    | false =>
        rw [step_of_refused free.live allowed]
        exact .inl (step_of_refused live allowed)
    | true =>
        obtain ⟨inside, compared⟩ := obeys free.live allowed started
        cases ended : statement limits (invoke limits nesting) node (machine.started node.span) with
        | error halt after =>
            rw [ended] at compared
            rw [step_of_error free.live allowed ended]
            rcases compared with same | ⟨bindings, point, after', givesUp, stopped⟩
            · exact .inl (step_of_error live allowed same)
            · exact .inr ⟨bindings, point, after',
                givesUp.ofPart (.first free.live allowed) (by simp),
                step_of_error live allowed stopped⟩
        | ok completion after =>
            rw [ended] at inside compared
            have goesOn : Obeys limits count ⟨nesting, .statements last (node :: nodes), machine⟩
                (after.recorded (.statementEnd node.span))
                (if completion.returning then pure completion else
                  statements limits (invoke limits nesting) completion nodes) := by
              split
              · exact .value completion
              · next goesOn =>
                  exact behind completion after free.live allowed ended (by simpa using goesOn)
            obtain ⟨rest, compared'⟩ := goesOn (inside.free.of_same rfl rfl rfl)
            rw [step_of_ok free.live allowed ended]
            rcases compared with same | ⟨bindings, point, after', givesUp, stopped⟩
            · rw [step_of_ok live allowed same]
              exact compared'
            · have before := Machine.Extends.recorded after (.statementEnd node.span)
              exact .inr ⟨bindings, point, after',
                (givesUp.ofPart (.first free.live allowed) (by simp)).further
                  (before.trans rest.grows),
                step_of_error live allowed stopped⟩

end Obeys

theorem obeys_walk (limits : Limits) (count : Nat) :
    Walk limits fun whole machine _ work => Obeys limits count whole machine work where
  value := .value
  fail := .fail
  overflow := .of_results rfl rfl fun free => ⟨free, .refl _, fun _ same => by cases same⟩
  lookup := .lookup
  assign _ _ := .of_results rfl rfl fun free =>
    ⟨free.of_same rfl rfl rfl, ⟨List.suffix_refl _, List.suffix_refl _⟩,
      fun _ same => by cases same⟩
  define _ := .of_results rfl rfl fun free =>
    ⟨free.of_same rfl rfl rfl, ⟨List.suffix_refl _, List.suffix_refl _⟩,
      fun _ same => by cases same⟩
  bind := .bind
  resolve := .resolve
  print _ _ := .print _ _
  part part := .ofPart part (by simp)
  call := .call
  step := .step

end Walks

def Visit.armed (count : Nat) (visit : Visit) : Visit :=
  { visit with machine := visit.machine.armed count }

theorem Obeys.of_ok {whole : Visit} {machine after : Machine} {work : Eval α} {result : α}
    (obeys : Obeys limits count whole machine work) (free : machine.Free)
    (ended : work machine = .ok result after) :
    after.Free ∧ (work (machine.armed count) = .ok result (after.armed count) ∨
      ∃ after', work (machine.armed count) = .error .cancelled after') := by
  obtain ⟨undisturbed, compared⟩ := obeys free
  rw [ended] at undisturbed compared
  refine ⟨undisturbed.free, compared.imp_right ?_⟩
  rintro ⟨_, _, after', _, stopped⟩
  exact ⟨after', stopped⟩

theorem fails_of_late {nesting : Nat} {last : Completion} {node : Node} {nodes : List Node}
    {machine : Machine} (free : machine.Free) (late : count ≤ machine.written.length) :
    Visit.Fails limits ⟨nesting, .statements last (node :: nodes), machine.armed count⟩ .cancelled
      (machine.armed count) := by
  simp only [Visit.Fails]
  rw [statements_cons]
  exact step_of_stopped (free.stopped_armed late)

variable {whole inner visit : Visit} {opening : Opening}

/-- What an evaluation turns to, it also turns to in a run that is cancelled, unless it has been
given up before. -/
theorem Part.armed (count : Nat) (part : Part limits whole opening inner)
    (free : whole.machine.Free) :
    inner.machine.Free ∧ (Part limits (whole.armed count) opening (inner.armed count) ∨
      ∃ after, (whole.armed count).Fails limits .cancelled after) := by
  have obeys := (obeys_walk limits count).does
  have gaveUp {opening : Opening} {first : Visit}
      (part : Part limits (whole.armed count) opening first)
      (failed : ∃ after, first.Fails limits .cancelled after) :
      ∃ after, (whole.armed count).Fails limits .cancelled after := by
    obtain ⟨after, failed⟩ := failed
    obtain ⟨after', failed', _⟩ := part.fails failed
    exact ⟨after', failed'⟩
  cases part with
  | left computes => exact ⟨free, .inl (.left computes)⟩
  | @right nesting machine _ _ _ left _ _ computes evaluated =>
      obtain ⟨freed, same | stopped⟩ :=
        (obeys ⟨nesting, .expression left, machine⟩).of_ok free evaluated
      · exact ⟨freed, .inl (.right computes same)⟩
      · exact ⟨freed, .inr (gaveUp (.left computes) stopped)⟩
  | assigned => exact ⟨free, .inl .assigned⟩
  | arguments found matching => exact ⟨free, .inl (.arguments found matching)⟩
  | @called nesting machine after _ name nodes function _ found matching evaluated allowed =>
      have found' : (machine.armed count).environment.function? name = some function := found
      have allowed' : limits.allowsDepth ((after.armed count).depth + 1) = true := allowed
      obtain ⟨freed, same | stopped⟩ :=
        (obeys ⟨nesting, .arguments nodes, machine⟩).of_ok free evaluated
      · exact ⟨freed.of_same rfl rfl rfl, .inl (.called found' matching same allowed')⟩
      · exact ⟨freed.of_same rfl rfl rfl, .inr (gaveUp (.arguments found matching) stopped)⟩
  | invoked => exact ⟨free, .inl .invoked⟩
  | argument => exact ⟨free, .inl .argument⟩
  | @moreArguments nesting machine _ node _ _ evaluated =>
      obtain ⟨freed, same | stopped⟩ :=
        (obeys ⟨nesting, .expression node, machine⟩).of_ok free evaluated
      · exact ⟨freed, .inl (.moreArguments same)⟩
      · exact ⟨freed, .inr (gaveUp .argument stopped)⟩
  | formula isFormula => exact ⟨free, .inl (.formula isFormula)⟩
  | printed => exact ⟨free, .inl .printed⟩
  | given => exact ⟨free, .inl .given⟩
  | block => exact ⟨free, .inl .block⟩
  | condition => exact ⟨free, .inl .condition⟩
  | @chosen nesting machine _ _ condition _ _ _ evaluated holds =>
      obtain ⟨freed, same | stopped⟩ :=
        (obeys ⟨nesting, .expression condition, machine⟩).of_ok free evaluated
      · exact ⟨freed, .inl (.chosen same holds)⟩
      · exact ⟨freed, .inr (gaveUp .condition stopped)⟩
  | @alternative nesting machine _ _ condition _ _ _ evaluated fails =>
      obtain ⟨freed, same | stopped⟩ :=
        (obeys ⟨nesting, .expression condition, machine⟩).of_ok free evaluated
      · exact ⟨freed, .inl (.alternative same fails)⟩
      · exact ⟨freed, .inr (gaveUp .condition stopped)⟩
  | @first _ machine _ _ _ live allowed =>
      refine ⟨free.of_same rfl rfl rfl, ?_⟩
      by_cases late : count ≤ machine.written.length
      · exact .inr ⟨machine.armed count, fails_of_late free late⟩
      · exact .inl (.first (free.live_armed late) allowed)
  | @next nesting machine _ _ _ node _ live allowed evaluated goesOn =>
      have started : (machine.started node.span).Free := free.of_same rfl rfl rfl
      obtain ⟨freed, compared⟩ :=
        (obeys ⟨nesting, .statement node, machine.started node.span⟩).of_ok started evaluated
      refine ⟨freed.of_same rfl rfl rfl, ?_⟩
      by_cases late : count ≤ machine.written.length
      · exact .inr ⟨machine.armed count, fails_of_late free late⟩
      · have live' : (machine.armed count).stop? limits = none := free.live_armed late
        rcases compared with same | stopped
        · exact .inl (.next live' allowed same goesOn)
        · exact .inr (gaveUp (.first live' allowed) stopped)
  | inside => exact ⟨free, .inl .inside⟩

/-- A statement that starts behind the lines gives the cancelled run up. -/
theorem Visits.gaveUp (visits : Visits limits whole visit) (free : whole.machine.Free)
    {last : Completion} {node : Node} {nodes : List Node}
    (starts : visit.task = .statements last (node :: nodes))
    (late : count ≤ visit.machine.written.length) :
    ∃ after, (whole.armed count).Fails limits .cancelled after := by
  induction visits with
  | here =>
      rename_i visit
      obtain ⟨nesting, task, machine⟩ := visit
      obtain rfl : task = _ := starts
      exact ⟨machine.armed count, fails_of_late free late⟩
  | part part _ inductionHypothesis =>
      obtain ⟨freed, taken | failed⟩ := part.armed count free
      · obtain ⟨after, failed⟩ := inductionHypothesis freed starts late
        obtain ⟨after', failed', _⟩ := taken.fails failed
        exact ⟨after', failed'⟩
      · exact failed

end Evaluation

end Parlance
