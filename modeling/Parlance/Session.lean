import Parlance.Lint
import Parlance.Run.Evaluation
import Parlance.Source

namespace Parlance

/-!
Sessions. What one run binds and declares is visible to the next; a reset
forgets all of it.
-/

structure Session where
  environment : Environment
  limits : Limits
  /-- How many calls the machine holds when the limits set no bound. -/
  capacity : Nat

namespace Session

def start (limits : Limits) (capacity : Nat := Limits.usualCapacity) : Session :=
  ⟨.empty, limits, capacity⟩

def execute (session : Session) (outlet : Outlet) (signal : Signal) (program : Program) :
    Report × Session :=
  let report := program.run session.environment ⟨session.limits, outlet, signal, session.capacity⟩
  (report, { session with environment := report.environment })

/-- Runs a source text against the session. A text that is no program changes
nothing. -/
def run (session : Session) (outlet : Outlet) (signal : Signal) (file source : Text) :
    Except SourceError Report × Session :=
  match parse file source with
  | .error error => (.error error, session)
  | .ok program =>
    let (report, after) := session.execute outlet signal program
    (.ok report, after)

def reset (session : Session) : Session :=
  { session with environment := .empty }

def known (session : Session) : Known :=
  ⟨session.environment.names,
    session.environment.functions.entries.map fun (name, function) =>
      (name, (function.parameters.length : Int))⟩

def check (session : Session) (file source : Text) : List Diagnostic :=
  match parse file source with
  | .error error => [error.diagnostic]
  | .ok program => program.lint session.known

end Session

end Parlance
