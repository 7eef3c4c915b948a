import Parlance.Proofs.Run.Continuation
import Parlance.Proofs.Run.Translation
import Parlance.Session
import Parlance.Settings

namespace Parlance

/-!
Runs under a limit end. A depth limit bounds the calls that are open inside
each other by itself. A step limit does so because a call is made from inside a
statement, and every statement that is in progress has been counted: a body
without statements costs no step, but no further call is made from it either.
So the room that the limits themselves give to evaluation is always enough, and
more room changes nothing.
-/

namespace Evaluation

variable {α : Type} {limits : Limits} {nesting started : Nat} {machine after : Machine}

/-- The limits allow no more calls inside each other than there is room for.
`started` is one inside a statement, whose step is counted already, and zero in
front of one. -/
def Fits (limits : Limits) (nesting started : Nat) (machine : Machine) : Prop :=
  limits.allowsSteps machine.steps = true ∧
    if 0 < limits.callDepth then limits.callDepth ≤ nesting + machine.depth
    else 0 < limits.steps ∧ limits.steps + started ≤ nesting + machine.steps

namespace Fits

theorem continued (fits : Fits limits nesting started machine) (continues : machine.Continues after)
    (allowed : limits.allowsSteps after.steps = true) : Fits limits nesting started after := by
  obtain ⟨_, room⟩ := fits
  have depth := continues.depth
  have steps := continues.steps
  refine ⟨allowed, ?_⟩
  split at room
  · next limited => rw [if_pos limited]; omega
  · next unlimited => rw [if_neg unlimited]; omega

theorem outside (fits : Fits limits nesting 1 machine) : Fits limits nesting 0 machine := by
  obtain ⟨allowed, room⟩ := fits
  refine ⟨allowed, ?_⟩
  split at room
  · next limited => rw [if_pos limited]; omega
  · next unlimited => rw [if_neg unlimited]; omega

theorem stepped (fits : Fits limits nesting 0 machine)
    (allowed : limits.allowsSteps (machine.steps + 1) = true) :
    Fits limits nesting 1 machine.stepped := by
  obtain ⟨_, room⟩ := fits
  refine ⟨allowed, ?_⟩
  simp only [Machine.stepped]
  split at room
  · next limited => rw [if_pos limited]; omega
  · next unlimited => rw [if_neg unlimited]; omega

/-- A call from inside a statement leaves room for one call less. -/
theorem entered (fits : Fits limits nesting 1 machine)
    (allowed : limits.allowsDepth (machine.depth + 1) = true) (span : Span) (function : Function)
    (name : Text) (arguments : List Value) :
    ∃ less, nesting = less + 1 ∧
      Fits limits less 0 (machine.entered span function name arguments) := by
  obtain ⟨counted, room⟩ := fits
  have counted' := Limits.allowsSteps_iff.mp counted
  have allowed' := Limits.allowsDepth_iff.mp allowed
  simp only [Fits, Machine.entered]
  split at room
  · next limited => exact ⟨nesting - 1, by omega, counted, by rw [if_pos limited]; omega⟩
  · next unlimited => exact ⟨nesting - 1, by omega, counted, by rw [if_neg unlimited]; omega⟩

end Fits

/-- Ended within the step limit or with a fault, but not for want of room. -/
inductive Confined (limits : Limits) : EStateM.Result Halt Machine α → Prop where
  | ok (result : α) {after : Machine} (allowed : limits.allowsSteps after.steps = true) :
      Confined limits (.ok result after)
  | fault (reason : Fault) (after : Machine) : Confined limits (.error (.fault reason) after)

structure Contained (limits : Limits) (nesting started : Nat) (work : Eval α) : Prop where
  continuing : Continuing work
  confined {machine : Machine} :
    Fits limits nesting started machine → Confined limits (work machine)

namespace Contained

theorem bind {β : Type} {first : Eval α} {next : α → Eval β}
    (contained : Contained limits nesting started first)
    (behind : ∀ result, Contained limits nesting started (next result)) :
    Contained limits nesting started (first >>= next) where
  continuing := .bind contained.continuing fun result => (behind result).continuing
  confined {machine} fits := by
    have continues := contained.continuing machine
    have confined := contained.confined fits
    generalize ended : first machine = result at continues confined
    cases confined with
    | ok result allowed =>
        rw [bind_of_ok ended]
        exact (behind result).confined (fits.continued continues allowed)
    | fault reason after =>
        rw [bind_of_error ended]
        exact .fault reason after

theorem steady {work : Eval α} (steady : Steady work) : Contained limits nesting started work where
  continuing := steady.continuing
  confined {machine} fits := by
    have settled := steady machine
    generalize work machine = result at settled ⊢
    match result with
    | .ok result after => exact .ok result (settled.steps.symm ▸ fits.1)
    | .error (.fault reason) after => exact .fault reason after
    | .error .overflow after => exact absurd rfl (settled.noOverflow after)

theorem inside {work : Eval α} (contained : Contained limits nesting 0 work) :
    Contained limits nesting 1 work where
  continuing := contained.continuing
  confined fits := contained.confined fits.outside

/-- What stands behind a counted step is inside a statement. -/
theorem counted {rest : Unit → Eval α} (behind : Contained limits nesting 1 (rest ())) :
    Contained limits nesting 0 (Machine.countStep limits >>= rest) where
  continuing := .bind (.countStep limits) fun _ => behind.continuing
  confined {machine} fits := by
    cases allowed : limits.allowsSteps (machine.steps + 1) with
    | true =>
        rw [bind_of_ok (Machine.countStep_of_allowed allowed)]
        exact behind.confined (fits.stepped allowed)
    | false =>
        rw [bind_of_error (Machine.countStep_of_refused allowed)]
        exact .fault _ _

theorem resolve (name : Text) (span : Span) {use : Function → Eval α}
    (behind : ∀ function, Contained limits nesting started (use function)) :
    Contained limits nesting started (resolve name span use) where
  continuing := .resolve name span fun function => (behind function).continuing
  confined {machine} fits := by
    cases found : machine.environment.function? name with
    | some function =>
        rw [resolve_of_some span use found]
        exact (behind function).confined fits
    | none =>
        rw [resolve_of_none span use found]
        exact .fault _ machine

theorem call {enter : Enter} (continuing : ∀ body, Continuing (enter body))
    (entering : ∀ less, nesting = less + 1 → ∀ body, Contained limits less 0 (enter body))
    (span : Span) (function : Function) (name : Text) (arguments : List Value) :
    Contained limits nesting 1 (Machine.call limits enter span function name arguments) where
  continuing := .call limits continuing span function name arguments
  confined {machine} fits := by
    cases allowed : limits.allowsDepth (machine.depth + 1) with
    | true =>
        rw [Machine.call_of_allowed enter span function name arguments allowed]
        obtain ⟨less, room, fits'⟩ := fits.entered allowed span function name arguments
        have confined := (entering less room function.body).confined fits'
        generalize enter function.body _ = result at confined ⊢
        cases confined with
        | ok completion allowed => exact .ok completion.value allowed
        | fault reason after => exact .fault reason _
    | false =>
        rw [Machine.call_of_refused enter span function name arguments allowed]
        exact .fault _ _

end Contained

theorem contained_corresponds {enter : Enter} (continuing : ∀ body, Continuing (enter body))
    (entering : ∀ less, nesting = less + 1 → ∀ body, Contained limits less 0 (enter body)) :
    Corresponds limits limits enter enter (fun _ work _ => Contained limits nesting 1 work)
      (fun work _ => Contained limits nesting 0 work) where
  value result := .steady (.value result)
  bind := .bind
  fail cause span := .steady (.fail cause span)
  lookup name span := .steady (.lookup name span)
  resolve name span _ _ := .resolve name span
  assign name value := .steady (.assign name value)
  define function := .steady (.define function)
  print span text := .steady (.print span text)
  call := .call continuing entering
  branch := .inside
  finish completion := .steady (.value completion)
  step span work work' next next' contained behind := by
    refine .bind (.steady (.checkSignal limits)) fun _ => .counted <| .bind (.steady (.record _)) fun _ =>
      .bind contained fun completion => .bind (.steady (.record _)) fun _ => ?_
    split
    · exact .steady (.value completion)
    · exact (behind completion).inside

theorem optionalBlock_contained (limits : Limits) (nesting : Nat) (body : Option Block) :
    Contained limits nesting 0 (optionalBlock limits (invoke limits nesting) body) := by
  induction nesting generalizing body with
  | zero =>
      -- Without room the limits allow no call, and the body is never entered.
      exact (contained_corresponds (invoke_continuing limits 0)
        (fun _ impossible => absurd impossible (Nat.zero_ne_add_one _))).ofOptionalBlock body
  | succ nesting inductionHypothesis =>
      refine (contained_corresponds (invoke_continuing limits (nesting + 1)) ?_).ofOptionalBlock body
      intro less room body
      cases room
      exact inductionHypothesis body

end Evaluation

open Evaluation

namespace Program

/-- The room that limits themselves give is enough for the calls that they allow. -/
theorem start_fits (program : Program) (environment : Environment) (setup : Setup)
    (bounded : 0 < setup.limits.callDepth ∨ 0 < setup.limits.steps) :
    Fits setup.limits (setup.limits.nesting setup.capacity) 0 (program.start environment setup) := by
  simp only [Fits, start, Limits.nesting]
  refine ⟨Limits.allowsSteps_iff.mpr (by omega), ?_⟩
  by_cases limited : 0 < setup.limits.callDepth
  · simp only [if_pos limited]
    omega
  · have counted : 0 < setup.limits.steps := bounded.resolve_left limited
    simp only [if_neg limited, if_pos counted]
    omega

theorem result_confined (program : Program) (environment : Environment) (setup : Setup)
    (bounded : 0 < setup.limits.callDepth ∨ 0 < setup.limits.steps) :
    Confined setup.limits (program.result setup.limits (setup.limits.nesting setup.capacity)
      (program.start environment setup)) :=
  (optionalBlock_contained setup.limits _ program.body).confined
    (program.start_fits environment setup bounded)

theorem run_outcome_of_bounded (program : Program) (environment : Environment) (setup : Setup)
    (bounded : 0 < setup.limits.callDepth ∨ 0 < setup.limits.steps) :
    (∃ completion, (program.run environment setup).outcome = .ok completion) ∨
      ∃ reason, (program.run environment setup).outcome = .error (.fault reason) := by
  have confined := program.result_confined environment setup bounded
  rw [run_eq, runWithin]
  generalize program.result _ _ _ = result at confined ⊢
  cases confined with
  | ok completion => exact .inl ⟨completion, rfl⟩
  | fault reason => exact .inr ⟨reason, rfl⟩

theorem result_more_of_bounded (program : Program) (environment : Environment) (setup : Setup)
    (bounded : 0 < setup.limits.callDepth ∨ 0 < setup.limits.steps) {nesting : Nat}
    (more : setup.limits.nesting setup.capacity ≤ nesting) :
    program.result setup.limits nesting (program.start environment setup) =
      program.result setup.limits (setup.limits.nesting setup.capacity)
        (program.start environment setup) := by
  refine program.result_more setup.limits more ?_
  intro after overflows
  have confined := program.result_confined environment setup bounded
  rw [overflows] at confined
  cases confined

/-- Under a limit on the depth of calls or on the number of steps every run ends: it comes to a
completion or to a fault of the program, and from some number on it does not matter how many calls
inside each other evaluation has room for. The limits that a session has without settings are such
limits. -/
theorem run_ends :
    (∀ (program : Program) (environment : Environment) (setup : Setup),
      0 < setup.limits.callDepth ∨ 0 < setup.limits.steps →
        ((∃ completion, (program.run environment setup).outcome = .ok completion) ∨
          ∃ reason, (program.run environment setup).outcome = .error (.fault reason)) ∧
        ∃ enough, ∀ nesting, enough ≤ nesting →
          program.runWithin nesting environment setup = program.run environment setup) ∧
    Settings.defaults.limits = ⟨10000, 0, 0⟩ ∧
    ∀ (program : Program) (environment : Environment) (capacity : Nat) (outlet : Outlet)
        (signal : Signal),
      let session : Session := ⟨environment, Settings.defaults.limits, capacity⟩
      let report := (session.execute outlet signal program).1
      (∃ completion, report.outcome = .ok completion) ∨
        ∃ reason, report.outcome = .error (.fault reason) := by
  refine ⟨?_, rfl, ?_⟩
  · intro program environment setup bounded
    refine ⟨program.run_outcome_of_bounded environment setup bounded,
      setup.limits.nesting setup.capacity, ?_⟩
    intro nesting more
    rw [run_eq, runWithin, runWithin, program.result_more_of_bounded environment setup bounded more]
  · intro program environment capacity outlet signal
    have bounded : 0 < Settings.defaults.limits.callDepth ∨ 0 < Settings.defaults.limits.steps :=
      .inl (by decide)
    exact program.run_outcome_of_bounded environment _ bounded

/-- A function that calls itself without end, stopped by nothing but the step limit. -/
theorem run_ends_recursive :
    let call : Node := .call .blank (utf8 "f") []
    let program : Program := ⟨.blank, some (.mk .blank [
      .declaration .blank (utf8 "f") [] (some (.mk .blank [.giveBack .blank call])),
      .giveBack .blank call])⟩
    let setup := Setup.standard ⟨0, 5, 0⟩
    0 < setup.limits.steps ∧
    ((∃ completion, (program.run .empty setup).outcome = .ok completion) ∨
      ∃ reason, (program.run .empty setup).outcome = .error (.fault reason)) ∧
    (program.run .empty setup).steps = 6 ∧
    ∃ enough, ∀ nesting, enough ≤ nesting →
      program.runWithin nesting .empty setup = program.run .empty setup := by
  intro call program setup
  have bounded : 0 < setup.limits.steps := by decide
  have counted : (program.run .empty setup).steps = 6 := by decide +kernel
  obtain ⟨ends, room⟩ := run_ends.1 program .empty setup (.inr bounded)
  exact ⟨bounded, ends, counted, room⟩

end Program

end Parlance
