import Parlance.Proofs.Run.Correspondence

namespace Parlance

/-!
What every evaluation leaves behind. Calls are closed again however it ends,
counters never go back, lines are only added, and what becomes of the outlet
and of the context depends on nothing but the number of lines.
-/

namespace Outlet

def behind (outlet : Outlet) (writes : Nat) : Outlet :=
  { outlet with
    room := outlet.room.map (· - writes)
    cancelIn := outlet.cancelIn.map (· - writes) }

/-- Whether the run is cancelled by one of a number of writes. -/
def cancels (outlet : Outlet) (writes : Nat) : Bool :=
  match outlet.cancelIn with
  | some count => 0 < count ∧ count ≤ writes
  | none => false

theorem behind_zero (outlet : Outlet) : outlet.behind 0 = outlet := by
  obtain ⟨room, refusal, cancelIn⟩ := outlet
  cases room <;> cases cancelIn <;> rfl

theorem behind_add (outlet : Outlet) (writes more : Nat) :
    (outlet.behind writes).behind more = outlet.behind (writes + more) := by
  obtain ⟨room, refusal, cancelIn⟩ := outlet
  cases room <;> cases cancelIn <;> simp [behind, Nat.sub_sub]

theorem cancels_zero (outlet : Outlet) : outlet.cancels 0 = false := by
  unfold cancels
  split
  · exact decide_eq_false (by omega)
  · rfl

theorem cancels_add (outlet : Outlet) (writes more : Nat) :
    (outlet.cancels writes || (outlet.behind writes).cancels more) =
      outlet.cancels (writes + more) := by
  obtain ⟨room, refusal, cancelIn⟩ := outlet
  cases cancelIn with
  | none => rfl
  | some count =>
      simp only [cancels, behind, Option.map_some, ← Bool.decide_or, decide_eq_decide]
      omega

theorem afterWrite_eq (outlet : Outlet) : Machine.afterWrite outlet = outlet.behind 1 := rfl

theorem cancels_one (outlet : Outlet) : outlet.cancels 1 = (outlet.cancelIn == some 1) := by
  obtain ⟨room, refusal, cancelIn⟩ := outlet
  cases cancelIn with
  | none => rfl
  | some count =>
      rw [cancels, Bool.eq_iff_iff, decide_eq_true_iff, beq_iff_eq, Option.some.injEq]
      omega

end Outlet

/-- The second machine is reached from the first by an evaluation. -/
structure Machine.Continues (before after : Machine) : Prop where
  depth : after.depth = before.depth
  steps : before.steps ≤ after.steps
  deepest : before.deepest ≤ after.deepest
  signal : after.signal = before.signal
  lines : ∃ lines, after.written = lines ++ before.written ∧
    after.outlet = before.outlet.behind lines.length ∧
    after.cancelled = (before.cancelled || before.outlet.cancels lines.length)

namespace Machine.Continues

/-- A step that keeps the lines, the outlet and the context has written nothing. -/
theorem silent {before after : Machine} (depth : after.depth = before.depth)
    (steps : before.steps ≤ after.steps) (deepest : before.deepest ≤ after.deepest)
    (written : after.written = before.written) (outlet : after.outlet = before.outlet)
    (signal : after.signal = before.signal) (cancelled : after.cancelled = before.cancelled) :
    before.Continues after := by
  refine ⟨depth, steps, deepest, signal, [], written, ?_, ?_⟩
  · rw [outlet]
    exact before.outlet.behind_zero.symm
  · rw [cancelled, List.length_nil, Outlet.cancels_zero, Bool.or_false]

theorem refl (machine : Machine) : machine.Continues machine :=
  silent rfl (Nat.le_refl _) (Nat.le_refl _) rfl rfl rfl rfl

theorem trans {first second third : Machine} (continues : first.Continues second)
    (continues' : second.Continues third) : first.Continues third where
  depth := continues'.depth.trans continues.depth
  steps := Nat.le_trans continues.steps continues'.steps
  deepest := Nat.le_trans continues.deepest continues'.deepest
  signal := continues'.signal.trans continues.signal
  lines := by
    obtain ⟨lines, written, outlet, cancelled⟩ := continues.lines
    obtain ⟨lines', written', outlet', cancelled'⟩ := continues'.lines
    have length : (lines' ++ lines).length = lines.length + lines'.length := by
      rw [List.length_append, Nat.add_comm]
    refine ⟨lines' ++ lines, ?_, ?_, ?_⟩
    · rw [written', written, List.append_assoc]
    · rw [outlet', outlet, Outlet.behind_add, length]
    · rw [cancelled', cancelled, outlet, Bool.or_assoc, Outlet.cancels_add, length]

theorem written_suffix {before after : Machine} (continues : before.Continues after) :
    before.written <:+ after.written := by
  obtain ⟨lines, written, _⟩ := continues.lines
  exact ⟨lines, written.symm⟩

end Machine.Continues

namespace Evaluation

variable {α β : Type}

def Continuing (work : Eval α) : Prop :=
  ∀ machine : Machine, machine.Continues (final (work machine))

/-- Ended without having counted a step, reached a new depth or run out of room. -/
structure Settled (machine : Machine) (result : EStateM.Result Halt Machine α) : Prop where
  continues : machine.Continues (final result)
  steps : (final result).steps = machine.steps
  deepest : (final result).deepest = machine.deepest
  noOverflow (after : Machine) : result ≠ .error .overflow after

def Steady (work : Eval α) : Prop :=
  ∀ machine, Settled machine (work machine)

namespace Steady

theorem continuing {work : Eval α} (steady : Steady work) : Continuing work :=
  fun machine => (steady machine).continues

theorem value (result : α) : Steady (pure result) :=
  fun machine => ⟨.refl machine, rfl, rfl, nofun⟩

theorem fault (reason : Fault) : Steady (throw (.fault reason) : Eval α) :=
  fun machine => ⟨.refl machine, rfl, rfl, nofun⟩

theorem fail (cause : Cause) (span : Span) : Steady (Machine.fail cause span : Eval α) :=
  fault _

theorem bind {first : Eval α} {next : α → Eval β} (steady : Steady first)
    (behind : ∀ result, Steady (next result)) : Steady (first >>= next) := by
  intro machine
  have start := steady machine
  cases ended : first machine with
  | ok result after =>
      rw [ended] at start
      have rest := behind result after
      rw [bind_of_ok ended]
      exact ⟨start.continues.trans rest.continues, rest.steps.trans start.steps,
        rest.deepest.trans start.deepest, rest.noOverflow⟩
  | error halt after =>
      rw [ended] at start
      rw [bind_of_error ended]
      refine ⟨start.continues, start.steps, start.deepest, fun other overflows => ?_⟩
      cases overflows
      exact start.noOverflow after rfl

theorem observe {next : Machine → Eval α} (behind : ∀ machine, Steady (next machine)) :
    Steady (get >>= next) :=
  fun machine => behind machine machine

theorem record (event : Event) : Steady (Machine.record event) :=
  fun _ => ⟨.silent rfl (Nat.le_refl _) (Nat.le_refl _) rfl rfl rfl rfl, rfl, rfl, nofun⟩

theorem assign (name : Text) (value : Value) : Steady (Machine.assign name value) :=
  fun _ => ⟨.silent rfl (Nat.le_refl _) (Nat.le_refl _) rfl rfl rfl rfl, rfl, rfl, nofun⟩

theorem define (function : Function) : Steady (Machine.define function) :=
  fun _ => ⟨.silent rfl (Nat.le_refl _) (Nat.le_refl _) rfl rfl rfl rfl, rfl, rfl, nofun⟩

theorem checkSignal (limits : Limits) : Steady (Machine.checkSignal limits) := by
  refine observe fun machine => ?_
  cases machine.stop? limits with
  | none => exact value ()
  | some cause => exact fault _

theorem write (span : Span) (text : Text) : Steady (Machine.write span text) := by
  intro machine
  by_cases full : machine.outlet.room = some 0
  · rw [Machine.write_of_full span text full]
    exact ⟨.refl machine, rfl, rfl, nofun⟩
  · rw [Machine.write_of_room span text full]
    refine ⟨⟨rfl, Nat.le_refl _, Nat.le_refl _, rfl, [text ++ [Text.newline]], rfl, ?_, ?_⟩, rfl,
      rfl, nofun⟩
    · exact machine.outlet.afterWrite_eq
    · exact congrArg (machine.cancelled || ·) machine.outlet.cancels_one.symm

theorem print (span : Span) (text : Text) : Steady (print span text) :=
  bind (write span text) fun _ => record _

theorem lookup (name : Text) (span : Span) : Steady (Machine.lookup name span) := by
  refine observe fun machine => ?_
  split
  · exact value _
  · exact fail _ _

end Steady

namespace Continuing

theorem bind {first : Eval α} {next : α → Eval β} (continues : Continuing first)
    (behind : ∀ result, Continuing (next result)) : Continuing (first >>= next) := by
  intro machine
  have start := continues machine
  cases ended : first machine with
  | ok result after =>
      rw [ended] at start
      rw [bind_of_ok ended]
      exact start.trans (behind result after)
  | error halt after =>
      rw [ended] at start
      rw [bind_of_error ended]
      exact start

theorem countStep (limits : Limits) : Continuing (Machine.countStep limits) := by
  intro machine
  have stepped : machine.Continues machine.stepped :=
    .silent rfl (Nat.le_succ _) (Nat.le_refl _) rfl rfl rfl rfl
  cases allowed : limits.allowsSteps (machine.steps + 1) with
  | true =>
      rw [Machine.countStep_of_allowed allowed]
      exact stepped
  | false =>
      rw [Machine.countStep_of_refused allowed]
      exact stepped

theorem resolve (name : Text) (span : Span) {use : Function → Eval α}
    (behind : ∀ function, Continuing (use function)) : Continuing (resolve name span use) := by
  intro machine
  cases found : machine.environment.function? name with
  | some function =>
      rw [resolve_of_some span use found]
      exact behind function machine
  | none =>
      rw [resolve_of_none span use found]
      exact .refl machine

theorem call (limits : Limits) {enter : Enter} (entering : ∀ body, Continuing (enter body))
    (span : Span) (function : Function) (name : Text) (arguments : List Value) :
    Continuing (Machine.call limits enter span function name arguments) := by
  intro machine
  cases allowed : limits.allowsDepth (machine.depth + 1) with
  | true =>
      rw [Machine.call_of_allowed enter span function name arguments allowed]
      have inside := entering function.body (machine.entered span function name arguments)
      generalize enter function.body _ = result at inside ⊢
      -- Leaving the call undoes the depth that entering it added.
      have depth : (final result).depth - 1 = machine.depth := by
        rw [inside.depth]
        rfl
      have deepest : machine.deepest ≤ (final result).deepest :=
        Nat.le_trans (Nat.le_max_left ..) inside.deepest
      cases result with
      | ok completion after => exact ⟨depth, inside.steps, deepest, inside.signal, inside.lines⟩
      | error halt after => exact ⟨depth, inside.steps, deepest, inside.signal, inside.lines⟩
  | false =>
      rw [Machine.call_of_refused enter span function name arguments allowed]
      exact .silent rfl (Nat.le_refl _) (Nat.le_max_left ..) rfl rfl rfl rfl

end Continuing

theorem continuing_corresponds (limits limits' : Limits) {enter : Enter} (enter' : Enter)
    (entering : ∀ body, Continuing (enter body)) :
    Corresponds limits limits' enter enter' (fun _ work _ => Continuing work)
      (fun work _ => Continuing work) where
  value result := (Steady.value result).continuing
  bind := .bind
  fail cause span := (Steady.fail cause span).continuing
  lookup name span := (Steady.lookup name span).continuing
  resolve name span _ _ := .resolve name span
  assign name value := (Steady.assign name value).continuing
  define function := (Steady.define function).continuing
  print span text := (Steady.print span text).continuing
  call := .call limits entering
  branch := id
  finish completion := (Steady.value completion).continuing
  step span work work' next next' continues behind := by
    refine .bind (Steady.checkSignal limits).continuing fun _ => .bind (.countStep limits) fun _ =>
      .bind (Steady.record _).continuing fun _ => .bind continues fun completion =>
      .bind (Steady.record _).continuing fun _ => ?_
    split
    · exact (Steady.value completion).continuing
    · exact behind completion

theorem invoke_continuing (limits : Limits) (nesting : Nat) (body : Option Block) :
    Continuing (invoke limits nesting body) := by
  induction nesting generalizing body with
  | zero => exact fun machine => .refl machine
  | succ nesting inductionHypothesis =>
      exact (continuing_corresponds limits limits (invoke limits nesting)
        inductionHypothesis).ofOptionalBlock body

end Evaluation

theorem Program.result_continues (program : Program) (limits : Limits) (nesting : Nat)
    (machine : Machine) :
    machine.Continues (Evaluation.final (program.result limits nesting machine)) :=
  Evaluation.invoke_continuing limits (nesting + 1) program.body machine

end Parlance
