import Parlance.Command
import Parlance.Proofs.Run.Discipline
import Parlance.Proofs.Run.Overlay
import Parlance.Proofs.Run.Safety
import Parlance.Proofs.Trace.Line

namespace Parlance

/-!
Summaries of traces agree with the runs that were traced. A run keeps its own
counts, a summary counts the lines of a file; both count events.
-/

theorem Text.IsName.ascii {name : Text} (isName : IsName name) : ∀ b ∈ name, b.toNat < 128 := by
  have word {b : UInt8} (isByte : Scanner.isNameByte b = true) : b.toNat < 128 := by
    have letter : (byte 'z').toNat = 122 := rfl
    have underscore : (byte '_').toNat = 95 := rfl
    have digit : (byte '9').toNat = 57 := rfl
    simp only [Scanner.isNameByte, isLower, isDigit, Bool.or_eq_true, Bool.and_eq_true,
      decide_eq_true_eq, beq_iff_eq, UInt8.le_iff_toNat_le, ← UInt8.toNat_inj] at isByte
    omega
  cases name with
  | nil => exact List.forall_mem_nil _
  | cons first rest =>
      have isFirst : Scanner.isNameByte first = true := by simp [Scanner.isNameByte, isName.1]
      exact List.forall_mem_cons.mpr ⟨word isFirst, fun b inside => word (isName.2 b inside)⟩

theorem Json.repaired_of_isName {name : Text} (isName : Text.IsName name) : repaired name = name :=
  repaired_of_isWellFormed (Text.isWellFormed_of_ascii isName.ascii)

namespace Table

def sumEntries (entries : List (Text × Nat)) : Nat :=
  entries.foldr (fun entry behind => entry.2 + behind) 0

def total (table : Table Nat) : Nat :=
  sumEntries table.entries

theorem sum_insertEntry (key : Text) (value : Nat) {entries : List (Text × Nat)}
    (sorted : entries.Pairwise fun first second => Text.before first.1 second.1 = true) :
    sumEntries (insertEntry key value entries) + (findEntry key entries).getD 0 =
      sumEntries entries + value := by
  induction entries with
  | nil => simp [sumEntries, insertEntry, findEntry]
  | cons first rest inductionHypothesis =>
      obtain ⟨smallest, sortedRest⟩ := List.pairwise_cons.mp sorted
      unfold insertEntry
      split
      · next less =>
          have missing : findEntry key (first :: rest) = none := by
            refine findEntry_of_before fun entry member => ?_
            have front : Text.before key first.1 = true := by simp [Text.before, less]
            rcases List.mem_cons.mp member with rfl | inside
            · exact front
            · exact Text.before_trans front (smallest entry inside)
          simp [sumEntries, missing]
          omega
      · next same =>
          simp [sumEntries, findEntry, Text.eq_of_compare same]
          omega
      · next greater =>
          have differs : key ≠ first.1 := by
            rintro rfl
            rw [Text.compare_self] at greater
            contradiction
          have behind := inductionHypothesis sortedRest
          simp [sumEntries, findEntry, differs] at behind ⊢
          omega

theorem total_insert (table : Table Nat) (key : Text) (value : Nat) :
    (table.insert key value).total + (table.get? key).getD 0 = table.total + value :=
  sum_insertEntry key value table.sorted

end Table

namespace Event

/-- Whether the event is the start of a call of the function. -/
def calls (function : Text) : Event → Bool
  | .callStart _ name _ => decide (function = name)
  | _ => false

/-- How the run ended that the event ends. -/
def success? : Event → Option Bool
  | .runEnd _ _ _ _ succeeded => some succeeded
  | _ => none

theorem reached_of_noCall {event : Event} (noCall : ∀ function, event.calls function = false) :
    event.reached = 0 := by
  cases event with
  | callStart span function depth => simpa [calls] using noCall function
  | _ => rfl

theorem reached_le_deepest {log : List Event} {event : Event} (member : event ∈ log) :
    event.reached ≤ deepest log := by
  induction log with
  | nil => contradiction
  | cons first others inductionHypothesis =>
      rw [deepest_cons]
      rcases List.mem_cons.mp member with rfl | inside
      · exact Nat.le_max_left ..
      · exact Nat.le_trans (inductionHypothesis inside) (Nat.le_max_right ..)

end Event

namespace Trace

open Json

variable {clock : Clock} {runId : Text}

namespace Summary

/-- What the events of a log add to a summary. The depths of calls are read as
floating point, so they are only known up to a bound. -/
structure Tallies (runId : Text) (before after : Summary) (log : List Event) : Prop where
  events : after.events = before.events + log.length
  statements : after.statements = before.statements + log.countP Event.startsStatement
  prints : after.prints = before.prints + (log.filterMap Event.line?).length
  calls : after.calls + before.callsByName.total = before.calls + after.callsByName.total
  byName (function : Text) : (after.callsByName.get? function).getD 0 =
    (before.callsByName.get? function).getD 0 + log.countP (Event.calls function)
  positive : (∀ function, before.callsByName.get? function ≠ some 0) →
    ∀ function, after.callsByName.get? function ≠ some 0
  deepest {depth : Nat} : (∀ event ∈ log, event.reached ≤ Nat.pow 2 53) → before.deepest = depth →
    after.deepest = (max depth (Event.deepest log) : Nat)
  succeeded : after.succeeded? = (log.filterMap Event.success?).getLast?.or before.succeeded?
  runId : after.runId = if log.isEmpty || !before.runId.isEmpty then before.runId else runId

namespace Tallies

theorem refl (runId : Text) (summary : Summary) : Tallies runId summary summary [] where
  events := rfl
  statements := rfl
  prints := rfl
  calls := rfl
  byName _ := rfl
  positive := id
  deepest _ same := by rw [same, Event.deepest_nil, Nat.max_zero]
  succeeded := rfl
  runId := rfl

theorem trans {first second third : Summary} {log more : List Event}
    (tallies : Tallies runId first second log) (tallies' : Tallies runId second third more) :
    Tallies runId first third (log ++ more) where
  events := by rw [tallies'.events, tallies.events, List.length_append, Nat.add_assoc]
  statements := by
    rw [tallies'.statements, tallies.statements, List.countP_append, Nat.add_assoc]
  prints := by
    rw [tallies'.prints, tallies.prints, List.filterMap_append, List.length_append, Nat.add_assoc]
  calls := by
    have calls := tallies.calls
    have calls' := tallies'.calls
    omega
  byName function := by
    rw [tallies'.byName, tallies.byName, List.countP_append, Nat.add_assoc]
  positive := tallies'.positive ∘ tallies.positive
  deepest bounded same := by
    rw [List.forall_mem_append] at bounded
    rw [tallies'.deepest bounded.2 (tallies.deepest bounded.1 same), Event.deepest_append,
      Nat.max_assoc]
  succeeded := by
    rw [tallies'.succeeded, tallies.succeeded, List.filterMap_append, List.getLast?_append,
      Option.or_assoc]
  runId := by
    rw [tallies'.runId, tallies.runId]
    cases log <;> cases more <;> cases named : first.runId.isEmpty <;> simp [named]

end Tallies

section Kinds

variable (summary : Summary) {record : Record}

theorem addKind_of_runStart (isKind : record.event = utf8 "run_start") :
    summary.addKind record = { summary with
      startTime := if summary.startTime.isEmpty then record.stamp else summary.startTime } := by
  rw [addKind, if_pos isKind]
  split <;> rfl

theorem addKind_of_runEnd (isKind : record.event = utf8 "run_end") {succeeded : Bool}
    (detail : record.detail? (utf8 "succeeded") = some (.bool succeeded)) :
    summary.addKind record =
      { summary with endTime := record.stamp, succeeded? := some succeeded } := by
  have notStart : utf8 "run_end" ≠ utf8 "run_start" := by decide
  rw [addKind, isKind, if_neg notStart, if_pos rfl, detail]

theorem addKind_of_statementStart (isKind : record.event = utf8 "stmt_start") :
    summary.addKind record = { summary with statements := summary.statements + 1 } := by
  have notStart : utf8 "stmt_start" ≠ utf8 "run_start" := by decide
  have notEnd : utf8 "stmt_start" ≠ utf8 "run_end" := by decide
  rw [addKind, isKind, if_neg notStart, if_neg notEnd, if_pos rfl]

theorem addKind_of_callStart (isKind : record.event = utf8 "fn_call_start") :
    summary.addKind record = summary.addCall record := by
  have notStart : utf8 "fn_call_start" ≠ utf8 "run_start" := by decide
  have notEnd : utf8 "fn_call_start" ≠ utf8 "run_end" := by decide
  have notStatement : utf8 "fn_call_start" ≠ utf8 "stmt_start" := by decide
  rw [addKind, isKind, if_neg notStart, if_neg notEnd, if_neg notStatement, if_pos rfl]

theorem addKind_of_print (isKind : record.event = utf8 "print") :
    summary.addKind record = { summary with prints := summary.prints + 1 } := by
  have notStart : utf8 "print" ≠ utf8 "run_start" := by decide
  have notEnd : utf8 "print" ≠ utf8 "run_end" := by decide
  have notStatement : utf8 "print" ≠ utf8 "stmt_start" := by decide
  have notCall : utf8 "print" ≠ utf8 "fn_call_start" := by decide
  rw [addKind, isKind, if_neg notStart, if_neg notEnd, if_neg notStatement, if_neg notCall,
    if_pos rfl]

/-- The ends of statements and calls add nothing. -/
theorem addKind_of_other (isKind : record.event ∈ [utf8 "stmt_end", utf8 "fn_call_end"]) :
    summary.addKind record = summary := by
  have others : ∀ name ∈ [utf8 "stmt_end", utf8 "fn_call_end"],
      name ∉ [utf8 "run_start", utf8 "run_end", utf8 "stmt_start", utf8 "fn_call_start",
        utf8 "print"] := by
    decide
  have differs := others _ isKind
  simp only [List.mem_cons, List.not_mem_nil, or_false, not_or] at differs
  obtain ⟨notStart, notEnd, notStatement, notCall, notPrint⟩ := differs
  rw [addKind, if_neg notStart, if_neg notEnd, if_neg notStatement, if_neg notCall,
    if_neg notPrint]

end Kinds

/-- Every event is counted, and gives the summary its name if it has none. -/
def counted (summary : Summary) (runId : Text) : Summary :=
  { summary with
    events := summary.events + 1
    runId := if summary.runId.isEmpty then runId else summary.runId }

theorem add_eq (summary : Summary) (record : Record) :
    summary.add record = (summary.counted record.runId).addKind record := rfl

theorem counted_runId (summary : Summary) (runId : Text) (event : Event) :
    (summary.counted runId).runId =
      if [event].isEmpty || !summary.runId.isEmpty then summary.runId else runId := by
  unfold counted
  cases summary.runId <;> rfl

/-- What is recorded of a call, if its details can be read. -/
theorem addCall_eq (summary : Summary) {record : Record} {name : Text} {depth : Nat}
    (function : record.detail? (utf8 "fn") = some (.text name))
    (deep : record.detail? (utf8 "depth") = some (.number (Text.ofInt depth))) :
    ∃ deepest, summary.addCall record = { summary with
        calls := summary.calls + 1
        callsByName :=
          summary.callsByName.insert name ((summary.callsByName.get? name).getD 0 + 1)
        deepest } ∧
      (depth ≤ Nat.pow 2 53 → deepest = max summary.deepest depth) := by
  unfold addCall
  rw [function, deep]
  refine ⟨_, rfl, fun bounded => ?_⟩
  have isWord : (depth : Int) < Word.bound := by
    have smaller : Nat.pow 2 53 < Word.bound := by decide
    omega
  obtain ⟨size, read, exact⟩ := Binary64.ofDecimal?_natural isWord
  have float : float? (Text.ofInt depth) = some (false, size) := by
    change float? (Text.ofNat depth) = _
    rw [float?_ofNat, read]
    rfl
  simp [float, exact bounded]

section Step

variable (summary : Summary) {event : Event} (index : Nat)

/-- Apart from calls, an event adds to one count at most. -/
theorem addKind_record (noCall : ∀ function, event.calls function = false) :
    ∃ startTime endTime, summary.addKind (record clock runId (event, index)) = { summary with
      statements := summary.statements + [event].countP Event.startsStatement
      prints := summary.prints + ([event].filterMap Event.line?).length
      succeeded? := ([event].filterMap Event.success?).getLast?.or summary.succeeded?
      startTime
      endTime } := by
  cases event with
  | runStart span => exact ⟨_, _, addKind_of_runStart summary rfl⟩
  | runEnd span steps deepest returned succeeded =>
      refine ⟨_, _, addKind_of_runEnd summary rfl ?_⟩
      simp [Record.detail?, record, Record.ofEvent, Event.timedDetails, Event.details,
        decodedFields, decoded, repaired_utf8]
  | statementStart span => exact ⟨_, _, addKind_of_statementStart summary rfl⟩
  | statementEnd span => exact ⟨_, _, addKind_of_other summary List.mem_cons_self⟩
  | callStart span function depth => simpa [Event.calls] using noCall function
  | callEnd span function depth =>
      exact ⟨_, _, addKind_of_other summary (List.mem_cons_of_mem _ List.mem_cons_self)⟩
  | print span text => exact ⟨_, _, addKind_of_print summary rfl⟩

theorem tallies_of_noCall (noCall : ∀ function, event.calls function = false) :
    Tallies (repaired runId) summary (summary.add (record clock runId (event, index))) [event] := by
  obtain ⟨startTime, endTime, added⟩ := addKind_record _ index noCall
  rw [add_eq, added]
  exact {
    events := rfl
    statements := rfl
    prints := rfl
    calls := rfl
    byName function := by simp [counted, noCall]
    positive := id
    deepest _ same := by simp [counted, same, Event.reached_of_noCall noCall]
    succeeded := rfl
    runId := counted_runId .. }

theorem tallies_of_call (span : Span) {function : Text} (depth : Nat)
    (isName : Text.IsName function) :
    Tallies (repaired runId) summary
      (summary.add (record clock runId (.callStart span function depth, index)))
      [.callStart span function depth] := by
  have data : (record clock runId (.callStart span function depth, index)).data =
      [(utf8 "fn", .text function), (utf8 "depth", .number (Text.ofInt depth))] := by
    simp [record, Record.ofEvent, Event.timedDetails, Event.details, decodedFields, decoded,
      repaired_utf8, repaired_of_isName isName]
  have differs : utf8 "fn" ≠ utf8 "depth" := by decide
  have isCall : (record clock runId (.callStart span function depth, index)).event =
      utf8 "fn_call_start" := rfl
  have ofRun : (record clock runId (.callStart span function depth, index)).runId =
      repaired runId := rfl
  -- Nothing else of the record matters, and unfolding it again would be slow.
  generalize record clock runId (.callStart span function depth, index) = call at *
  have name? : call.detail? (utf8 "fn") = some (.text function) := by
    simp [Record.detail?, data]
  have depth? : call.detail? (utf8 "depth") = some (.number (Text.ofInt depth)) := by
    simp [Record.detail?, data, differs]
  obtain ⟨deepest, added, exact⟩ := addCall_eq (summary.counted (repaired runId)) name? depth?
  rw [add_eq, ofRun, addKind_of_callStart _ isCall, added]
  exact {
    events := rfl
    statements := rfl
    prints := rfl
    calls := by
      have inserted := summary.callsByName.total_insert function
        ((summary.callsByName.get? function).getD 0 + 1)
      dsimp only [counted]
      omega
    byName other := by
      dsimp only [counted]
      rw [Table.get?_insert]
      by_cases isOther : other = function <;> simp [Event.calls, isOther]
    positive before other := by
      dsimp only [counted]
      rw [Table.get?_insert]
      split
      · simp
      · exact before other
    deepest bounded natural := by
      have deepest' := exact (bounded _ List.mem_cons_self)
      change deepest = max summary.deepest depth at deepest'
      simp only [deepest', natural, Event.deepest_cons, Event.deepest_nil, Event.reached]
      omega
    succeeded := rfl
    runId := counted_runId .. }

/-- What is recorded of one event. -/
theorem add_tallies (named : event.Named) :
    Tallies (repaired runId) summary (summary.add (record clock runId (event, index))) [event] := by
  cases event with
  | callStart span function depth => exact tallies_of_call summary index span depth named
  | _ => exact tallies_of_noCall summary index fun _ => rfl

end Step

theorem foldl_tallies {events : List (Event × Nat)} (named : ∀ placed ∈ events, placed.1.Named)
    (summary : Summary) :
    Tallies (repaired runId) summary ((events.map (record clock runId)).foldl add summary)
      (events.map Prod.fst) := by
  induction events generalizing summary with
  | nil => exact .refl _ summary
  | cons placed events inductionHypothesis =>
      rw [List.forall_mem_cons] at named
      exact (add_tallies summary placed.2 named.1).trans (inductionHypothesis named.2 _)

/-! What a summary has if nothing else is in it. -/

section Whole

variable {summary : Summary} {log : List Event} (tallies : Tallies runId empty summary log)
include tallies

theorem Tallies.calls_eq_total : summary.calls = summary.callsByName.total := by
  have calls : summary.calls + 0 = 0 + summary.callsByName.total := tallies.calls
  omega

theorem Tallies.get?_callsByName (function : Text) :
    summary.callsByName.get? function =
      if log.countP (Event.calls function) = 0 then none
      else some (log.countP (Event.calls function)) := by
  have byName : (summary.callsByName.get? function).getD 0 =
      0 + log.countP (Event.calls function) := tallies.byName function
  have positive := tallies.positive nofun function
  rw [Nat.zero_add] at byName
  rw [← byName]
  cases found : summary.callsByName.get? function with
  | none => rfl
  | some count =>
      rw [found] at positive
      have nonzero : count ≠ 0 := fun zero => positive (congrArg some zero)
      exact (if_neg nonzero).symm

theorem Tallies.runId_eq (nonempty : log ≠ []) : summary.runId = runId := by
  rw [tallies.runId]
  cases log with
  | nil => contradiction
  | cons => rfl

theorem Tallies.deepest_eq (bounded : Event.deepest log ≤ Nat.pow 2 53) :
    summary.deepest = (Event.deepest log : Int) := by
  have each : ∀ event ∈ log, event.reached ≤ Nat.pow 2 53 :=
    fun event member => Nat.le_trans (Event.reached_le_deepest member) bounded
  have deepest : summary.deepest = (max 0 (Event.deepest log) : Nat) := tallies.deepest each rfl
  rw [deepest, Nat.zero_max]

end Whole

end Summary

end Trace

/-- What a run counts can be read off its events. -/
structure Report.Counted (report : Report) : Prop where
  written : report.written = report.events.filterMap Event.line?
  success : (report.events.filterMap Event.success?).getLast? = some report.outcome.isOk
  steps {completion : Completion} : report.outcome = .ok completion →
    report.steps = report.events.countP Event.startsStatement
  deepest {completion : Completion} : report.outcome = .ok completion →
    report.deepest = Event.deepest report.events

theorem Report.Counted.events_ne_nil {report : Report} (counted : report.Counted) :
    report.events ≠ [] := by
  intro empty
  have success := counted.success
  rw [empty] at success
  cases success

namespace Program

section Reports

open Evaluation

variable {program : Program} {environment : Environment} {setup : Setup} {body : List Event}
  {result : EStateM.Result Halt Machine Completion}
  (logged : (program.start environment setup).Logged setup.limits (final result) body)
include logged

theorem lines_of_logged :
    (Report.of program.span result).written =
      (Report.of program.span result).events.filterMap Event.line? := by
  rw [written_of_logged logged, events_of_logged logged, ← List.cons_append,
    List.filterMap_append]
  exact (List.append_nil _).symm

/-- The last event of a run tells whether it was a success. -/
theorem success_of_logged :
    ((Report.of program.span result).events.filterMap Event.success?).getLast? =
      some (Report.of program.span result).outcome.isOk := by
  rw [events_of_logged logged, ← List.cons_append, List.filterMap_append]
  exact List.getLast?_concat

end Reports

theorem run_counted (program : Program) (environment : Environment) (setup : Setup) :
    (program.run environment setup).Counted := by
  rw [run_eq]
  unfold runWithin
  have trail := Evaluation.invoke_traced setup.limits (setup.limits.nesting setup.capacity + 1)
    program.body (program.start environment setup)
  change Evaluation.Trail _ _ (program.result _ _ _) at trail
  generalize program.result _ _ _ = result at trail ⊢
  cases trail with
  | @ok completion after log finished =>
      have logged : (program.start environment setup).Logged setup.limits
          (Evaluation.final (.ok completion after)) log := finished.toLogged
      refine ⟨lines_of_logged logged, success_of_logged logged, fun _ => ?_, fun _ => ?_⟩
      · rw [events_of_logged logged, Report.of_steps]
        simp [Evaluation.final, finished.steps, start, Event.startsStatement, Report.ending]
      · rw [events_of_logged logged, Report.of_deepest]
        simp [Evaluation.final, finished.deepest, start, Event.reached, Report.ending]
  | @error halt after log logged =>
      have logged' : (program.start environment setup).Logged setup.limits
          (Evaluation.final (.error halt after : EStateM.Result Halt Machine Completion)) log :=
        logged
      refine ⟨lines_of_logged logged', success_of_logged logged', fun ended => ?_, fun ended => ?_⟩ <;>
        cases ended

end Program

theorem Session.run_counted {session : Session} {outlet : Outlet} {signal : Signal}
    {file source : Text} {report : Report}
    (ran : (session.run outlet signal file source).1 = .ok report) : report.Counted := by
  cases accepted : parse file source with
  | error error =>
      rw [session.run_of_refused outlet signal accepted] at ran
      cases ran
  | ok program =>
      rw [session.run_of_parse outlet signal accepted] at ran
      cases ran
      exact program.run_counted ..

namespace Command.World

/-- The summary of a trace file agrees with the run that was traced, whatever the session has done
before. The numbers of the run are words of the machine, and as depths are read as floating point,
the deepest is exact as long as 53 bits are enough for it. -/
theorem traceText_summarized (world : World) (limits : Limits) (capacity : Nat)
    (requests : List Session.Request) {outlet : Outlet} {signal : Signal} {file source : Text}
    {report : Report}
    (ran : (((Session.start limits capacity).serveAll requests).run outlet signal file source).1 =
      .ok report)
    (fits : ∀ event ∈ report.events, event.Fits)
    (timed : Word.isSigned world.clock.elapsed = true)
    (short : ∀ line ∈ Text.splitOn Text.newline (world.traceText (.ok report)),
      line.length < Trace.Summary.lineLimit) :
    let summary := Trace.Summary.ofText (world.traceText (.ok report))
    summary.events = report.events.length ∧
      summary.succeeded? = some report.outcome.isOk ∧
      summary.prints = report.written.length ∧
      summary.calls = summary.callsByName.total ∧
      (∀ function, summary.callsByName.get? function =
        let entered := report.events.countP (Event.calls function)
        if entered = 0 then none else some entered) ∧
      (world.runId.isWellFormed = true → summary.runId = world.runId) ∧
      ∀ completion, report.outcome = .ok completion →
        summary.statements = report.steps ∧
          (report.deepest ≤ Nat.pow 2 53 → summary.deepest = report.deepest) := by
  intro summary
  have sound : ((Session.start limits capacity).serveAll requests).environment.Sound (· ≠ .absent) :=
    Session.serveAll_sound Value.inherited_present .empty requests
  have safe := (Session.run_sound Value.inherited_present sound outlet signal file source).2 _ ran
  have counted := Session.run_counted ran
  have tallies :
      Trace.Summary.Tallies (Json.repaired world.runId) .empty summary report.events := by
    have named : ∀ placed ∈ report.events.zipIdx, placed.1.Named :=
      fun placed member => safe.events placed.1 (List.fst_mem_of_mem_zipIdx member)
    have folded := @Trace.Summary.foldl_tallies world.clock world.runId _ named .empty
    rwa [← Trace.Summary.ofText_trace fits timed short, List.zipIdx_map_fst] at folded
  refine ⟨?_, ?_, ?_, tallies.calls_eq_total, tallies.get?_callsByName, fun wellFormed => ?_,
    fun completion succeeded => ⟨?_, fun bounded => ?_⟩⟩
  · rw [tallies.events]
    exact Nat.zero_add _
  · rw [tallies.succeeded, counted.success]
    rfl
  · rw [tallies.prints, counted.written]
    exact Nat.zero_add _
  · rw [tallies.runId_eq counted.events_ne_nil, Json.repaired_of_isWellFormed wellFormed]
  · rw [tallies.statements, counted.steps succeeded]
    exact Nat.zero_add _
  · have deepest := counted.deepest succeeded
    rw [deepest] at bounded ⊢
    exact tallies.deepest_eq bounded

/-- A function that prints a character which JSON escapes is declared and called. -/
theorem traceText_summarized_call :
    let world : World := ⟨⟨[]⟩, [], [], .ok [], ⟨fun _ => [], 0⟩, utf8 "r", 50, fun _ _ _ _ => []⟩
    let result := ((Session.start ⟨1, 0, 0⟩ 50).run .unlimited .live []
      (utf8 "THE f()ME NOILIENTUC'<'IM MAY f()IM")).1
    ∃ report, result = .ok report ∧
      let summary := Trace.Summary.ofText (world.traceText (.ok report))
      summary.events = 11 ∧ summary.succeeded? = some true ∧ summary.prints = 1 ∧
        summary.callsByName.get? (utf8 "f") = some 1 ∧ summary.runId = utf8 "r" ∧
        summary.statements = 3 ∧ summary.deepest = 1 := by
  intro world result
  let place (start stop : Int) : Span := ⟨[], ⟨1, start⟩, ⟨1, stop⟩⟩
  let program : Program := ⟨place 1 36, some (.mk (place 1 36) [
    .declaration (place 1 30) (utf8 "f") [] (some (.mk (place 8 30) [
      .unary (place 11 24) .print (.string (place 21 24) (utf8 "'<'"))])),
    .call (place 31 34) (utf8 "f") []])⟩
  let report := program.run .empty ⟨⟨1, 0, 0⟩, .unlimited, .live, 50⟩
  have scanned : (tokenize [] (utf8 "THE f()ME NOILIENTUC'<'IM MAY f()IM")).toOption = some [
      .inLine (.keyword .function) "THE" 1 4, .inLine .name "f" 5 6,
      .inLine (.mark .openParen) "(" 6 7, .inLine (.mark .closeParen) ")" 7 8,
      .inLine (.keyword .openBlock) "ME" 8 10, .inLine (.keyword .print) "NOILIENTUC" 11 21,
      .inLine .string "'<'" 21 24, .inLine (.keyword .terminator) "IM" 24 26,
      .inLine (.keyword .closeBlock) "MAY" 27 30, .inLine .name "f" 31 32,
      .inLine (.mark .openParen) "(" 32 33, .inLine (.mark .closeParen) ")" 33 34,
      .inLine (.keyword .terminator) "IM" 34 36, .inLine .endOfFile "" 36 36] := by
    decide +kernel
  have accepted : parse [] (utf8 "THE f()ME NOILIENTUC'<'IM MAY f()IM") = .ok program := by
    refine parse_of_tokens scanned ?_
    simp [Token.inLine, parseTokens, Grammar.topLevel, Grammar.statement, Grammar.assignment,
      Grammar.declaration, Grammar.parameters, Grammar.block, Grammar.statements,
      Grammar.terminated, Grammar.selfDelimited, Grammar.formula, Grammar.chain, Grammar.primary,
      Grammar.arguments, Grammar.take, Grammar.operator?, Grammar.endToken, Span.cover, Node.span,
      Block.span, program, place]
  have ran : result = .ok report :=
    congrArg Prod.fst ((Session.start ⟨1, 0, 0⟩ 50).run_of_parse .unlimited .live accepted)
  obtain ⟨fits, short, events, written, entered, isOk, steps, deepest⟩ :
      (∀ event ∈ report.events, ∀ number ∈ event.numbers, Word.isSigned number = true) ∧
        (∀ line ∈ Text.splitOn Text.newline (world.traceText (.ok report)),
          line.length < Trace.Summary.lineLimit) ∧
        report.events.length = 11 ∧ report.written.length = 1 ∧
        report.events.countP (Event.calls (utf8 "f")) = 1 ∧ report.outcome.isOk = true ∧
        report.steps = 3 ∧ report.deepest = 1 := by
    decide +kernel
  obtain ⟨sameEvents, sameSuccess, samePrints, _, sameCalls, sameId, sameCounts⟩ :=
    traceText_summarized world ⟨1, 0, 0⟩ 50 [] ran fits (by decide) short
  cases outcome : report.outcome with
  | error halt =>
      rw [outcome] at isOk
      cases isOk
  | ok completion =>
      obtain ⟨sameSteps, sameDeepest⟩ := sameCounts completion outcome
      refine ⟨report, ran, sameEvents.trans events, ?_, samePrints.trans written, ?_,
        sameId (by decide), sameSteps.trans steps, ?_⟩
      · rw [sameSuccess, isOk]
      · rw [sameCalls, entered]
        rfl
      · rw [sameDeepest (by rw [deepest]; decide), deepest]
        rfl

end Command.World

end Parlance
