import Parlance.Diagnostic

namespace Parlance

/-- What a trace records about a run. Statements and calls have a start and an
end; a print is recorded behind the write. -/
inductive Event where
  | runStart (span : Span)
  | runEnd (span : Span) (steps deepest : Nat) (returned succeeded : Bool)
  | statementStart (span : Span)
  | statementEnd (span : Span)
  | callStart (span : Span) (function : Text) (depth : Nat)
  | callEnd (span : Span) (function : Text) (depth : Nat)
  | print (span : Span) (text : Text)
  deriving DecidableEq, Repr

namespace Event

def name : Event → Text
  | runStart .. => utf8 "run_start"
  | runEnd .. => utf8 "run_end"
  | statementStart .. => utf8 "stmt_start"
  | statementEnd .. => utf8 "stmt_end"
  | callStart .. => utf8 "fn_call_start"
  | callEnd .. => utf8 "fn_call_end"
  | print .. => utf8 "print"

def span : Event → Span
  | runStart span | runEnd span .. | statementStart span | statementEnd span
  | callStart span .. | callEnd span .. | print span _ => span

/-- What the event says beyond its place, except for times. -/
def details : Event → List (Text × Data)
  | runEnd _ steps deepest returned succeeded =>
    [(utf8 "maxDepth", .int deepest), (utf8 "returned", .bool returned),
      (utf8 "steps", .int steps), (utf8 "succeeded", .bool succeeded)]
  | callStart _ function depth | callEnd _ function depth =>
    [(utf8 "depth", .int depth), (utf8 "fn", .text function)]
  | print _ text => [(utf8 "text", .text text)]
  | _ => []

/-- The details with the time the run took, in whole milliseconds. -/
def timedDetails (elapsed : Nat) : Event → List (Text × Data)
  | event@(runEnd ..) => (utf8 "elapsedMs", .int elapsed) :: event.details
  | event => event.details

def line (stamp runId : Text) (elapsed : Nat) (event : Event) : Text :=
  let details := event.timedDetails elapsed
  Json.compact (.record (
    [(utf8 "ts", .text stamp), (utf8 "runId", .text runId), (utf8 "event", .text event.name),
      (utf8 "span", event.span.data)] ++
    if details.isEmpty then [] else [(utf8 "data", .record details)])) ++ [Text.newline]

end Event

structure Clock where
  stamp : Nat → Text
  elapsed : Nat

def Event.trace (clock : Clock) (runId : Text) (events : List Event) : Text :=
  events.zipIdx.flatMap fun (event, index) => event.line (clock.stamp index) runId clock.elapsed

end Parlance
