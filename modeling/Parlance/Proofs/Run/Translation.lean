import Parlance.Proofs.Run.Correspondence

namespace Parlance.Evaluation

/-!
Runs that differ by a translation of machines. A translation changes bindings,
counters and records in a way that the operations on machines commute with;
evaluating on the translated machine then gives the translated result. Halts
may be exempt: of a run that stops with one of them nothing is said.
-/

variable {α β : Type} {limits limits' : Limits} {exempt : Halt → Prop}

/-- What a translation does apart from the functions that are declared. -/
structure Alteration (limits limits' : Limits) (exempt : Halt → Prop) where
  environment : Environment → Environment
  steps : Nat → Nat
  deepest : Nat → Nat
  signal : Signal → Signal
  written : List Text → List Text
  events : List Event → List Event
  set (bindings : Environment) (name : Text) (value : Value) :
    environment (bindings.set name value) = (environment bindings).set name value
  bound {bindings : Environment} {name : Text} {value : Value} :
    bindings.get? name = some value → (environment bindings).get? name = some value
  unbound {bindings : Environment} {name : Text} (span : Span) : bindings.get? name = none →
    exempt (.fault ⟨.undefinedVariable name, some span⟩) ∨ (environment bindings).get? name = none
  counted (count : Nat) : steps (count + 1) = steps count + 1
  stepAllowed {count : Nat} :
    limits.allowsSteps count = true → limits'.allowsSteps (steps count) = true
  stepRefused {count : Nat} : limits.allowsSteps count = false →
    exempt (.fault ⟨.stepBudget limits.steps, none⟩) ∨
      limits'.allowsSteps (steps count) = false ∧ limits'.steps = limits.steps
  asked (schedule : Signal) (poll : Nat) :
    (signal schedule).interruption? (steps poll) = schedule.interruption? poll
  caused (interruption : Interruption) : interruption.cause? limits' = interruption.cause? limits
  reached (before depth : Nat) : deepest (max before depth) = max (deepest before) depth
  callAllowed {depth : Nat} : limits.allowsDepth depth = true → limits'.allowsDepth depth = true
  callRefused {depth : Nat} (span : Span) : limits.allowsDepth depth = false →
    exempt (.fault ⟨.depthBudget limits.callDepth, some span⟩) ∨
      limits'.allowsDepth depth = false ∧ limits'.callDepth = limits.callDepth
  wrote (line : Text) (lines : List Text) : written (line :: lines) = line :: written lines
  recorded (event : Event) (earlier : List Event) :
    events (event :: earlier) = event :: events earlier

structure Translation (limits limits' : Limits) (exempt : Halt → Prop) extends
    Alteration limits limits' exempt where
  define (bindings : Environment) (function : Function) :
    environment (bindings.define function) = (environment bindings).define function
  declared {bindings : Environment} {name : Text} {function : Function} :
    bindings.function? name = some function →
      (environment bindings).function? name = some function
  undeclared {bindings : Environment} {name : Text} (span : Span) :
    bindings.function? name = none → exempt (.fault ⟨.undefinedFunction name, some span⟩) ∨
      (environment bindings).function? name = none

/-- The second result is the first one on the translated machine. -/
inductive Seen (exempt : Halt → Prop) (view : Machine → Machine) :
    EStateM.Result Halt Machine α → EStateM.Result Halt Machine α → Prop where
  | ok (result : α) (machine : Machine) : Seen exempt view (.ok result machine) (.ok result (view machine))
  | error (halt : Halt) (machine : Machine) :
      Seen exempt view (.error halt machine) (.error halt (view machine))
  | exempt {halt : Halt} (isExempt : exempt halt) (machine : Machine)
      (other : EStateM.Result Halt Machine α) : Seen exempt view (.error halt machine) other

def Follows (exempt : Halt → Prop) (view : Machine → Machine) (first second : Eval α) : Prop :=
  ∀ machine : Machine, Seen exempt view (first machine) (second (view machine))

namespace Follows

variable {view : Machine → Machine}

theorem value (result : α) : Follows exempt view (pure result) (pure result) :=
  fun machine => .ok result machine

theorem stop (halt : Halt) : Follows exempt view (throw halt : Eval α) (throw halt) :=
  fun machine => .error halt machine

theorem fail (cause : Cause) (span : Span) :
    Follows exempt view (Machine.fail cause span : Eval α) (Machine.fail cause span) :=
  stop _

theorem bind {first second : Eval α} {next next' : α → Eval β}
    (follows : Follows exempt view first second)
    (behind : ∀ result, Follows exempt view (next result) (next' result)) :
    Follows exempt view (first >>= next) (second >>= next') := by
  intro machine
  have start := follows machine
  generalize ended : first machine = result at start
  generalize ended' : second (view machine) = result' at start
  cases start with
  | ok result after =>
      rw [bind_of_ok ended, bind_of_ok ended']
      exact behind result after
  | error halt after =>
      rw [bind_of_error ended, bind_of_error ended']
      exact .error halt after
  | exempt isExempt after =>
      rw [bind_of_error ended]
      exact .exempt isExempt after _

theorem change {update : Machine → Machine}
    (step : ∀ machine, update (view machine) = view (update machine)) :
    Follows exempt view (modify update) (modify update) := by
  intro machine
  change Seen exempt view (.ok () (update machine)) (.ok () (update (view machine)))
  rw [step]
  exact .ok () _

end Follows

namespace Alteration

variable (alteration : Alteration limits limits' exempt)

def machine (machine : Machine) : Machine :=
  { machine with
    environment := alteration.environment machine.environment
    steps := alteration.steps machine.steps
    deepest := alteration.deepest machine.deepest
    signal := alteration.signal machine.signal
    written := alteration.written machine.written
    events := alteration.events machine.events }

theorem bind (bindings : Environment) (names : List Text) (values : List Value) :
    alteration.environment (bindings.bind names values) =
      (alteration.environment bindings).bind names values := by
  induction names generalizing bindings values with
  | nil => rfl
  | cons name names inductionHypothesis =>
      cases values with
      | nil => rfl
      | cons value values =>
          simp only [Environment.bind, inductionHypothesis, alteration.set]

theorem record (event : Event) :
    Follows exempt alteration.machine (Machine.record event) (Machine.record event) :=
  .change fun machine => by simp only [Alteration.machine, alteration.recorded]

theorem stop? (machine : Machine) :
    (alteration.machine machine).stop? limits' = machine.stop? limits :=
  Signal.cause?_congr (alteration.asked machine.signal machine.steps) alteration.caused
    machine.cancelled

theorem checkSignal : Follows exempt alteration.machine (Machine.checkSignal limits)
    (Machine.checkSignal limits') := by
  intro machine
  have same := alteration.stop? machine
  cases asked : machine.stop? limits with
  | none =>
      rw [asked] at same
      rw [Machine.checkSignal_of_live asked, Machine.checkSignal_of_live same]
      exact .ok () machine
  | some cause =>
      rw [asked] at same
      rw [Machine.checkSignal_of_stopped asked, Machine.checkSignal_of_stopped same]
      exact .error _ machine

theorem machine_stepped (machine : Machine) :
    (alteration.machine machine).stepped = alteration.machine machine.stepped := by
  simp only [Machine.stepped, Alteration.machine, alteration.counted]

theorem countStep : Follows exempt alteration.machine (Machine.countStep limits)
    (Machine.countStep limits') := by
  intro machine
  cases allowed : limits.allowsSteps (machine.steps + 1) with
  | true =>
      have allowed' := alteration.stepAllowed allowed
      rw [alteration.counted] at allowed'
      rw [Machine.countStep_of_allowed allowed, Machine.countStep_of_allowed allowed',
        alteration.machine_stepped]
      exact .ok () machine.stepped
  | false =>
      rw [Machine.countStep_of_refused allowed]
      rcases alteration.stepRefused allowed with isExempt | ⟨refused, same⟩
      · exact .exempt isExempt machine.stepped _
      · rw [alteration.counted] at refused
        rw [Machine.countStep_of_refused refused, alteration.machine_stepped, same]
        exact .error _ machine.stepped

theorem write (span : Span) (text : Text) :
    Follows exempt alteration.machine (Machine.write span text) (Machine.write span text) := by
  intro machine
  by_cases full : machine.outlet.room = some 0
  · have full' : (alteration.machine machine).outlet.room = some 0 := full
    rw [Machine.write_of_full span text full, Machine.write_of_full span text full']
    exact .error _ machine
  · have room' : (alteration.machine machine).outlet.room ≠ some 0 := full
    rw [Machine.write_of_room span text full, Machine.write_of_room span text room']
    have moved : (alteration.machine machine).wrote (text ++ [Text.newline]) =
        alteration.machine (machine.wrote (text ++ [Text.newline])) := by
      simp only [Machine.wrote, Alteration.machine, alteration.wrote]
    rw [moved]
    exact .ok () _

theorem lookup (name : Text) (span : Span) :
    Follows exempt alteration.machine (Machine.lookup name span) (Machine.lookup name span) := by
  intro machine
  cases found : machine.environment.get? name with
  | some value =>
      have found' := alteration.bound found
      rw [Machine.lookup_of_some span found, Machine.lookup_of_some span found']
      exact .ok value machine
  | none =>
      rw [Machine.lookup_of_none span found]
      rcases alteration.unbound span found with isExempt | missing
      · exact .exempt isExempt machine _
      · rw [Machine.lookup_of_none span missing]
        exact .error _ machine

variable {enter enter' : Enter}

theorem machine_entered (machine : Machine) (span : Span) (function : Function) (name : Text)
    (arguments : List Value) :
    (alteration.machine machine).entered span function name arguments =
      alteration.machine (machine.entered span function name arguments) := by
  simp only [Machine.entered, Alteration.machine, alteration.bind, alteration.reached,
    alteration.recorded]

theorem machine_left (caller : Machine) (span : Span) (name : Text) (after : Machine) :
    (alteration.machine caller).left span name (alteration.machine after) =
      alteration.machine (caller.left span name after) := by
  simp only [Machine.left, Alteration.machine, alteration.recorded]

/-- Both sides may call functions of their own, if the parameters are the same. -/
theorem call {function function' : Function} (sameParameters : function'.parameters = function.parameters)
    (entering : Follows exempt alteration.machine (enter function.body) (enter' function'.body))
    (span : Span) (name : Text) (arguments : List Value) :
    Follows exempt alteration.machine (Machine.call limits enter span function name arguments)
      (Machine.call limits' enter' span function' name arguments) := by
  intro machine
  cases allowed : limits.allowsDepth (machine.depth + 1) with
  | true =>
      have allowed' : limits'.allowsDepth ((alteration.machine machine).depth + 1) = true :=
        alteration.callAllowed allowed
      have sameStart : (alteration.machine machine).entered span function' name arguments =
          alteration.machine (machine.entered span function name arguments) := by
        rw [← alteration.machine_entered]
        simp only [Machine.entered, sameParameters]
      rw [Machine.call_of_allowed enter span function name arguments allowed,
        Machine.call_of_allowed enter' span function' name arguments allowed', sameStart]
      have inside := entering (machine.entered span function name arguments)
      generalize enter function.body _ = result at inside ⊢
      generalize enter' function'.body _ = result' at inside ⊢
      cases inside with
      | ok completion after =>
          rw [Machine.returned, Machine.returned, alteration.machine_left]
          exact .ok completion.value _
      | error halt after =>
          rw [Machine.returned, Machine.returned, alteration.machine_left]
          exact .error halt _
      | exempt isExempt after => exact .exempt isExempt _ _
  | false =>
      rw [Machine.call_of_refused enter span function name arguments allowed]
      rcases alteration.callRefused span allowed with isExempt | ⟨refused, same⟩
      · exact .exempt isExempt _ _
      · have refused' : limits'.allowsDepth ((alteration.machine machine).depth + 1) = false :=
          refused
        rw [Machine.call_of_refused enter' span function' name arguments refused', same]
        have moved : { alteration.machine machine with
              deepest := max (alteration.machine machine).deepest
                ((alteration.machine machine).depth + 1) } =
            alteration.machine
              { machine with deepest := max machine.deepest (machine.depth + 1) } := by
          simp only [Alteration.machine, alteration.reached]
        rw [moved]
        exact .error _ _

theorem assign (name : Text) (value : Value) :
    Follows exempt alteration.machine (Machine.assign name value) (Machine.assign name value) :=
  .change fun machine => by simp only [Alteration.machine, alteration.set]

theorem print (span : Span) (text : Text) :
    Follows exempt alteration.machine (print span text) (print span text) :=
  .bind (alteration.write span text) fun _ => alteration.record _

theorem step (span : Span) {work work' : Eval Completion} {next next' : Completion → Eval Completion}
    (follows : Follows exempt alteration.machine work work')
    (behind : ∀ completion, Follows exempt alteration.machine (next completion) (next' completion)) :
    Follows exempt alteration.machine (step limits span work next)
      (step limits' span work' next') := by
  refine .bind alteration.checkSignal fun _ => .bind alteration.countStep fun _ =>
    .bind (alteration.record _) fun _ => .bind follows fun completion =>
    .bind (alteration.record _) fun _ => ?_
  split
  · exact .value completion
  · exact behind completion

end Alteration

namespace Translation

variable (translation : Translation limits limits' exempt)

theorem resolve (name : Text) (span : Span) {use use' : Function → Eval α}
    (behind : ∀ function, Follows exempt translation.machine (use function) (use' function)) :
    Follows exempt translation.machine (resolve name span use) (resolve name span use') := by
  intro machine
  cases found : machine.environment.function? name with
  | some function =>
      have found' := translation.declared found
      rw [resolve_of_some span use found, resolve_of_some span use' found']
      exact behind function machine
  | none =>
      rw [resolve_of_none span use found]
      rcases translation.undeclared span found with isExempt | missing
      · exact .exempt isExempt machine _
      · rw [resolve_of_none span use' missing]
        exact .error _ machine

variable {enter enter' : Enter}

theorem corresponds (entering : ∀ body, Follows exempt translation.machine (enter body) (enter' body)) :
    Corresponds limits limits' enter enter' (fun _ => Follows exempt translation.machine)
      (Follows exempt translation.machine) where
  value := .value
  bind := .bind
  fail := .fail
  lookup := translation.lookup
  resolve name span _ _ := translation.resolve name span
  assign := translation.assign
  define function := .change fun machine => by simp only [Alteration.machine, translation.define]
  print := translation.print
  call span function name arguments :=
    translation.call rfl (entering function.body) span name arguments
  branch := id
  finish := .value
  step span _ _ _ _ := translation.step span

/-- Calls inside each other may be given more room when an overflow is exempt. -/
theorem invoke {nesting nesting' : Nat}
    (room : nesting' = nesting ∨ exempt .overflow ∧ nesting ≤ nesting') (body : Option Block) :
    Follows exempt translation.machine (invoke limits nesting body) (invoke limits' nesting' body) := by
  induction nesting generalizing nesting' body with
  | zero =>
      rcases room with rfl | ⟨isExempt, _⟩
      · exact .stop .overflow
      · exact fun machine => .exempt isExempt machine _
  | succ nesting inductionHypothesis =>
      -- Room on one side is room on the other, so both enter one body further in.
      obtain ⟨less, rfl, room'⟩ : ∃ less, nesting' = less + 1 ∧
          (less = nesting ∨ exempt .overflow ∧ nesting ≤ less) := by
        refine ⟨nesting' - 1, ?_, ?_⟩
        · omega
        · exact room.imp (by omega) fun more => ⟨more.1, by omega⟩
      exact (translation.corresponds (inductionHypothesis room')).ofOptionalBlock body

theorem result (program : Program) {nesting nesting' : Nat}
    (room : nesting' = nesting ∨ exempt .overflow ∧ nesting ≤ nesting') (machine : Machine) :
    Seen exempt translation.machine (program.result limits nesting machine)
      (program.result limits' nesting' (translation.machine machine)) :=
  (translation.corresponds (translation.invoke room)).ofOptionalBlock program.body machine

theorem result_same (program : Program) (nesting : Nat) (machine : Machine) :
    Seen exempt translation.machine (program.result limits nesting machine)
      (program.result limits' nesting (translation.machine machine)) :=
  translation.result program (.inl rfl) machine

end Translation

/-- The translation that leaves machines as they are and may relax the limits. -/
def Translation.relaxing
    (steps : ∀ count, limits.allowsSteps count = true → limits'.allowsSteps count = true)
    (depth : ∀ depth, limits.allowsDepth depth = true → limits'.allowsDepth depth = true)
    (caused : ∀ interruption : Interruption, interruption.cause? limits' = interruption.cause? limits)
    (refused : limits' = limits ∨ ∀ reason : Fault, reason.code = .budget → exempt (.fault reason)) :
    Translation limits limits' exempt where
  environment := id
  steps := id
  deepest := id
  signal := id
  written := id
  events := id
  set _ _ _ := rfl
  define _ _ := rfl
  bound := id
  unbound _ := .inr
  declared := id
  undeclared _ := .inr
  counted _ := rfl
  stepAllowed := steps _
  stepRefused refusal := by
    rcases refused with rfl | budget
    · exact .inr ⟨refusal, rfl⟩
    · exact .inl (budget _ rfl)
  asked _ _ := rfl
  caused := caused
  reached _ _ := rfl
  callAllowed := depth _
  callRefused _ refusal := by
    rcases refused with rfl | budget
    · exact .inr ⟨refusal, rfl⟩
    · exact .inl (budget _ rfl)
  wrote _ _ := rfl
  recorded _ _ := rfl

def Translation.same (limits : Limits) (exempt : Halt → Prop) : Translation limits limits exempt :=
  .relaxing (fun _ => id) (fun _ => id) (fun _ => rfl) (.inl rfl)

/-- Only what is bound and declared differs. -/
def Alteration.ofEnvironment (limits : Limits) {exempt : Halt → Prop}
    (environment : Environment → Environment)
    (set : ∀ bindings name value,
      environment (bindings.set name value) = (environment bindings).set name value)
    (bound : ∀ {bindings : Environment} {name : Text} {value : Value},
      bindings.get? name = some value → (environment bindings).get? name = some value)
    (unbound : ∀ {bindings : Environment} {name : Text} (span : Span), bindings.get? name = none →
      exempt (.fault ⟨.undefinedVariable name, some span⟩) ∨
        (environment bindings).get? name = none) : Alteration limits limits exempt :=
  { (Translation.same limits exempt).toAlteration with environment, set, bound, unbound }

/-- Seen through a translation that changes nothing, a result without an exempt
halt is the same. -/
theorem Seen.eq {result result' : EStateM.Result Halt Machine α} (seen : Seen exempt id result result')
    (settled : ∀ halt after, result = .error halt after → ¬ exempt halt) : result' = result := by
  cases seen with
  | ok => rfl
  | error => rfl
  | exempt isExempt after => exact absurd isExempt (settled _ after rfl)

end Parlance.Evaluation

namespace Parlance

open Evaluation

/-- More room for calls inside each other does not change a result that did not run out of it. -/
theorem Program.result_more (program : Program) (limits : Limits) {nesting nesting' : Nat}
    (more : nesting ≤ nesting') {machine : Machine}
    (settled : ∀ after, program.result limits nesting machine ≠ .error .overflow after) :
    program.result limits nesting' machine = program.result limits nesting machine := by
  have seen := (Translation.same limits (· = .overflow)).result program (.inr ⟨rfl, more⟩) machine
  refine seen.eq ?_
  rintro halt after ended rfl
  exact settled after ended

end Parlance
