import Parlance.Environment
import Parlance.Run.Event
import Parlance.Run.Fault
import Parlance.Run.Limits

namespace Parlance

/-!
The state of a run. It outlives a fault: what was assigned, declared and
written before stays.
-/

/-- What stops a run between two statements: the context around it is cancelled
or over its deadline, or the run's own clock is at the time limit. -/
inductive Interruption where
  | cancelled
  | deadline
  | elapsed
  deriving DecidableEq, Repr

/-- The cause of the stop. Without a time limit the clock is not looked at. -/
def Interruption.cause? (limits : Limits) : Interruption → Option Cause
  | cancelled => some .cancelled
  | deadline => some .deadline
  | elapsed => if 0 < limits.time then some (.timeBudget limits.time) else none

/-- What a run finds when it asks whether it may go on. It asks in front of
every statement, so questions are counted like steps, and from the one that
`poll` tells on it finds an interruption. -/
inductive Signal where
  | live
  | due (poll : Nat) (interruption : Interruption)
  deriving DecidableEq, Repr

namespace Signal

def cancelled : Signal := .due 0 .cancelled

def expired : Signal := .due 0 .deadline

def interruption? (poll : Nat) : Signal → Option Interruption
  | live => none
  | due first interruption => if first ≤ poll then some interruption else none

/-- The cause that a poll finds in a context which was `cancelled` by then or
not. A deadline that is over remains the cause. -/
def cause? (limits : Limits) (poll : Nat) (cancelled : Bool) (signal : Signal) : Option Cause :=
  match signal.interruption? poll with
  | some .deadline => some .deadline
  | found => if cancelled then some .cancelled else found.bind (·.cause? limits)

end Signal

/-- Where printed lines go. It takes `room` more writes and then refuses; the
run is cancelled right behind the write that `cancelIn` counts down to. -/
structure Outlet where
  room : Option Nat
  refusal : Text
  cancelIn : Option Nat
  deriving DecidableEq, Repr

def Outlet.unlimited : Outlet := ⟨none, [], none⟩

structure Machine where
  environment : Environment
  steps : Nat
  depth : Nat
  /-- The greatest depth reached, counting a call that the limit stopped. -/
  deepest : Nat
  signal : Signal
  /-- Whether a write has cancelled the run. -/
  cancelled : Bool
  outlet : Outlet
  /-- Lines written, newest first. -/
  written : List Text
  /-- Events recorded, newest first. -/
  events : List Event

/-- Why evaluation stops: a fault of the program, or the machine has no room
for another call and breaks down without a word. -/
inductive Halt where
  | fault (fault : Fault)
  | overflow
  deriving DecidableEq, Repr

def Halt.diagnostic? : Halt → Option Diagnostic
  | .fault reason => some reason.diagnostic
  | .overflow => none

/-- A computation on a machine that may stop early. The machine is kept either
way. -/
abbrev Eval := EStateM Halt Machine

/-- How a statement ended. `returning` is set while a return unwinds to the
call or the program around it. -/
structure Completion where
  value : Value
  returning : Bool
  deriving DecidableEq, Repr

def Completion.normal (value : Value) : Completion := ⟨value, false⟩

namespace Machine

def fail (cause : Cause) (span : Span) : Eval α :=
  throw (.fault ⟨cause, some span⟩)

def record (event : Event) : Eval Unit :=
  modify fun machine => { machine with events := event :: machine.events }

def stop? (limits : Limits) (machine : Machine) : Option Cause :=
  machine.signal.cause? limits machine.steps machine.cancelled

def checkSignal (limits : Limits) : Eval Unit := do
  match (← get).stop? limits with
  | none => pure ()
  | some cause => throw (.fault ⟨cause, none⟩)

/-- The step that exceeds the limit is counted. -/
def countStep (limits : Limits) : Eval Unit := do
  modify fun machine => { machine with steps := machine.steps + 1 }
  if !limits.allowsSteps (← get).steps then
    throw (.fault ⟨.stepBudget limits.steps, none⟩)

def afterWrite (outlet : Outlet) : Outlet :=
  { outlet with room := outlet.room.map (· - 1), cancelIn := outlet.cancelIn.map (· - 1) }

/-- Writes a line, if the outlet takes it. The write that the outlet counts
down to cancels the run. -/
def write (span : Span) (text : Text) : Eval Unit := do
  let machine ← get
  if machine.outlet.room = some 0 then
    fail (.writing machine.outlet.refusal) span
  else
    set { machine with
      written := (text ++ [Text.newline]) :: machine.written
      outlet := afterWrite machine.outlet
      cancelled := machine.cancelled || machine.outlet.cancelIn == some 1 }

def lookup (name : Text) (span : Span) : Eval Value := do
  match (← get).environment.get? name with
  | some value => pure value
  | none => fail (.undefinedVariable name) span

def assign (name : Text) (value : Value) : Eval Unit :=
  modify fun machine => { machine with environment := machine.environment.set name value }

def define (function : Function) : Eval Unit :=
  modify fun machine => { machine with environment := machine.environment.define function }

/-- Runs the body of a function in a copy of the caller's bindings with the
parameters added. However the body ends, the caller's bindings are back
behind it. -/
def call (limits : Limits) (enter : Option Block → Eval Completion) (span : Span)
    (function : Function) (name : Text) (arguments : List Value) : Eval Value := fun machine =>
  let depth := machine.depth + 1
  let deepest := max machine.deepest depth
  if limits.allowsDepth depth then
    let inner : Machine := { machine with
      depth, deepest
      environment := machine.environment.bind function.parameters arguments
      events := .callStart span name depth :: machine.events }
    let leave (after : Machine) : Machine := { after with
      depth := after.depth - 1
      environment := machine.environment
      events := .callEnd span name after.depth :: after.events }
    match enter function.body inner with
    | .ok completion after => .ok completion.value (leave after)
    | .error halt after => .error halt (leave after)
  else
    .error (.fault ⟨.depthBudget limits.callDepth, some span⟩) { machine with deepest }

end Machine

end Parlance
