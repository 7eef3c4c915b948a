import Parlance.Run.Event
import Parlance.Trace
import Parlance.Proofs.Binary64
import Parlance.Proofs.Json.RoundTrip
import Parlance.Proofs.Text.Split
import Parlance.Proofs.Text.Trim

namespace Parlance

/-!
The lines of a trace file. What is read from a line is the event that the line
was written for, as far as a summary needs it. Summaries read numbers as words
of the machine, so those of the event have to be some.
-/

theorem Text.toInt?_ofInt (value : Int) : toInt? (ofInt value) = some value := by
  cases value with
  | ofNat value =>
      rw [ofInt, toInt?_of_isNumeral (isNumeral_ofNat value), digitsValue_ofNat]
      rfl
  | negSucc value =>
      obtain ⟨nonempty, all⟩ := isNumeral_ofNat (value + 1)
      have read : toNat? (ofNat (value + 1)) = some (value + 1) := by
        rw [toNat?, List.all_eq_true.mpr all, digitsValue_ofNat]
        simp [nonempty]
      rw [ofInt, toInt?, if_pos rfl, read]
      rfl

theorem Text.toInt64?_ofInt {value : Int} (isWord : Word.isSigned value = true) :
    toInt64? (ofInt value) = some (Int64.ofInt value) := by
  rw [toInt64?, toInt?_ofInt]
  exact if_pos isWord

namespace Json

theorem repaired_of_isWellFormed {text : Text} (wellFormed : text.isWellFormed = true) :
    repaired text = text :=
  Text.ofChars_chars text wellFormed

theorem repaired_utf8 (string : String) : repaired (utf8 string) = utf8 string := by
  rw [← Text.ofChars_toList, repaired, Text.chars_ofChars]

/-- A numeral without a sign is a whole number. -/
theorem float?_ofNat (value : Nat) :
    float? (Text.ofNat value) = (Binary64.ofDecimal? value 0).map fun size => (false, size) := by
  obtain ⟨nonempty, all⟩ := Text.isNumeral_ofNat value
  have unsigned : Text.startsWith (· == 45) (Text.ofNat value) = false := by
    cases digits : Text.ofNat value with
    | nil => rfl
    | cons first others =>
        have isDigit := all first (by simp [digits])
        have different : first ≠ 45 := by
          rintro rfl
          exact absurd isDigit (by decide)
        simp [Text.startsWith, different]
  have ended : Text.startsWith Text.isDigit [] = false := rfl
  have digits : (Text.ofNat value).takeWhile Text.isDigit = Text.ofNat value := by
    simpa using Scanner.takeWhile_run all ended
  have behind : (Text.ofNat value).dropWhile Text.isDigit = [] := by
    simpa using Scanner.dropWhile_run all ended
  unfold float?
  simp only [unsigned, Bool.false_eq_true, if_false, digits, behind]
  change (Binary64.ofDecimal? (Text.digitsValue (Text.ofNat value ++ [])) 0 >>=
    fun size => some (false, size)) = _
  rw [List.append_nil, Text.digitsValue_ofNat]
  cases Binary64.ofDecimal? value 0 <;> rfl

theorem float?_isSome {value : Nat} (isWord : Word.isSigned value = true) :
    (float? (Text.ofInt value)).isSome = true := by
  obtain ⟨size, read, _⟩ := Binary64.ofDecimal?_natural (Text.isSigned_iff.mp isWord).2
  change (float? (Text.ofNat value)).isSome = true
  rw [float?_ofNat, read]
  rfl

end Json

def Span.numbers (span : Span) : List Int :=
  [span.start.line, span.start.column, span.stop.line, span.stop.column]

/-- The numbers that an event tells, apart from times. -/
def Event.numbers : Event → List Int
  | .runEnd span steps deepest _ _ => [(steps : Int), (deepest : Int)] ++ span.numbers
  | .callStart span _ depth | .callEnd span _ depth => (depth : Int) :: span.numbers
  | event => event.span.numbers

/-- The numbers of the event are words. -/
def Event.Fits (event : Event) : Prop :=
  ∀ number ∈ event.numbers, Word.isSigned number = true

theorem Event.Fits.span {event : Event} (fits : event.Fits) :
    ∀ number ∈ event.span.numbers, Word.isSigned number = true := by
  intro number member
  refine fits number ?_
  cases event <;> simp_all [Event.numbers, Event.span]

/-- The JSON object of an event. -/
def Event.object (stamp runId : Text) (elapsed : Nat) (event : Event) : Data :=
  let details := event.timedDetails elapsed
  .record (
    [(utf8 "ts", .text stamp), (utf8 "runId", .text runId), (utf8 "event", .text event.name),
      (utf8 "span", event.span.data)] ++
    if details.isEmpty then [] else [(utf8 "data", .record details)])

theorem Event.repaired_name (event : Event) : Json.repaired event.name = event.name := by
  cases event <;> exact Json.repaired_utf8 _

theorem Event.details_finite {event : Event} (fits : event.Fits) {elapsed : Nat}
    (isWord : Word.isSigned elapsed = true) :
    Json.Value.fieldsFinite (Json.decodedFields (event.timedDetails elapsed)) = true := by
  cases event with
  | runStart | statementStart | statementEnd | print => rfl
  | callStart span function depth | callEnd span function depth =>
      have isWord' : Word.isSigned depth = true := fits _ (by simp [numbers])
      simp [timedDetails, details, Json.decodedFields, Json.decoded, Json.Value.fieldsFinite,
        Json.Value.isFinite, Json.float?_isSome isWord']
  | runEnd span steps deepest returned succeeded =>
      have stepsWord : Word.isSigned steps = true := fits _ (by simp [numbers])
      have deepestWord : Word.isSigned deepest = true := fits _ (by simp [numbers])
      simp [timedDetails, details, Json.decodedFields, Json.decoded, Json.Value.fieldsFinite,
        Json.Value.isFinite, Json.float?_isSome isWord, Json.float?_isSome stepsWord,
        Json.float?_isSome deepestWord]

namespace Trace.Record

open Json

/-- What is read from the line of an event. -/
def ofEvent (stamp runId : Text) (elapsed : Nat) (event : Event) : Record :=
  ⟨repaired stamp, repaired runId, event.name, (decodedFields (event.timedDetails elapsed)).reverse⟩

theorem isSpan_decoded {span : Span}
    (fits : ∀ number ∈ span.numbers, Word.isSigned number = true) :
    isSpan (decoded span.data) = true := by
  have isInt {number : Int} (member : number ∈ span.numbers) :
      (Value.asInt? 0 (.number (Text.ofInt number))).isSome = true := by
    rw [Value.asInt?, Text.toInt64?_ofInt (fits number member)]
    rfl
  simp only [Span.data, decoded, decodedFields, repaired_utf8, isSpan, List.all_cons, List.all_nil, Bool.and_true,
    Bool.and_eq_true]
  refine ⟨?_, ?_, ?_, ?_, ?_⟩
  · rw [if_pos (by decide)]
    rfl
  all_goals
    rw [if_neg (by decide), if_pos (by decide)]
    exact isInt (by simp [Span.numbers])

section Fields

variable (record : Record) (value : Value)

theorem addField?_stamp : record.addField? (utf8 "ts") value =
    (value.asText? record.stamp).map fun stamp => { record with stamp } := by
  rw [addField?, if_pos (by decide)]

theorem addField?_runId : record.addField? (utf8 "runId") value =
    (value.asText? record.runId).map fun runId => { record with runId } := by
  rw [addField?, if_neg (by decide), if_pos (by decide)]

theorem addField?_event : record.addField? (utf8 "event") value =
    (value.asText? record.event).map fun event => { record with event } := by
  rw [addField?, if_neg (by decide), if_neg (by decide),
    if_pos (by decide)]

theorem addField?_span : record.addField? (utf8 "span") value =
    if isSpan value then some record else none := by
  rw [addField?, if_neg (by decide), if_neg (by decide),
    if_neg (by decide), if_pos (by decide)]

theorem addField?_data : record.addField? (utf8 "data") value =
    (addData? record.data value).map fun data => { record with data } := by
  rw [addField?, if_neg (by decide), if_neg (by decide),
    if_neg (by decide), if_neg (by decide), if_pos (by decide)]

end Fields

theorem ofLine?_compact {stamp runId : Text} {elapsed : Nat} {event : Event} (fits : event.Fits)
    (isWord : Word.isSigned elapsed = true) :
    ofLine? (compact (event.object stamp runId elapsed)) =
      some (ofEvent stamp runId elapsed event) := by
  have shallow : depth (event.object stamp runId elapsed) ≤ maxDepth := by
    cases event <;> exact Nat.le_of_ble_eq_true rfl
  have span := isSpan_decoded fits.span
  have finite := event.details_finite fits isWord
  rw [ofLine?, read?_compact shallow]
  -- An event without details has no field for them either.
  cases details : event.timedDetails elapsed with
  | nil =>
      simp only [Event.object, details, List.isEmpty_nil, if_true, List.append_nil, decoded,
        decodedFields, repaired_utf8, List.foldlM_cons, List.foldlM_nil, addField?_stamp,
        addField?_runId, addField?_event, addField?_span]
      simp [span, Value.asText?, ofEvent, event.repaired_name, details, decodedFields, empty]
  | cons detail others =>
      simp only [details, decodedFields] at finite
      simp only [Event.object, details, List.isEmpty_cons, Bool.false_eq_true, if_false,
        List.cons_append, List.nil_append, decoded, decodedFields, repaired_utf8,
        List.foldlM_cons, List.foldlM_nil, addField?_stamp, addField?_runId, addField?_event,
        addField?_span, addField?_data]
      simp [span, Value.asText?, addData?, finite, ofEvent, event.repaired_name, details,
        decodedFields, empty]

end Trace.Record

namespace Trace

variable (clock : Clock) (runId : Text)

/-- The record of an event at its place in the trace. -/
def record (placed : Event × Nat) : Record :=
  .ofEvent (clock.stamp placed.2) runId clock.elapsed placed.1

def lineOf (placed : Event × Nat) : Text :=
  Json.compact (placed.1.object (clock.stamp placed.2) runId clock.elapsed)

theorem trace_eq (events : List Event) :
    Event.trace clock runId events =
      events.zipIdx.flatMap fun placed => lineOf clock runId placed ++ [Text.newline] := rfl

/-- Nothing in a line ends it. -/
theorem splitOn_lines (events : List (Event × Nat)) :
    Text.splitOn Text.newline
        (events.flatMap fun placed => lineOf clock runId placed ++ [Text.newline]) =
      events.map (lineOf clock runId) ++ [[]] := by
  have inside : ∀ line ∈ events.map (lineOf clock runId), Text.newline ∉ line := by
    intro line member newline
    obtain ⟨placed, _, rfl⟩ := List.mem_map.mp member
    exact absurd (Json.compact_visible _ _ newline) (by decide)
  have apart := Text.splitOn_ended Text.newline inside []
  rwa [List.append_nil, List.flatMap_map] at apart

namespace Summary

variable {clock runId}

theorem addLine_lineOf (summary : Summary) {placed : Event × Nat} (fits : placed.1.Fits)
    (isWord : Word.isSigned clock.elapsed = true) :
    summary.addLine (lineOf clock runId placed) = summary.add (record clock runId placed) := by
  have trimmed : Text.trim (lineOf clock runId placed) = lineOf clock runId placed := by
    rw [lineOf, Event.object, Json.compact_record]
    exact Text.trim_eq_self ⟨by decide, by decide⟩ ⟨by decide, by decide⟩ _
  have nonempty : (lineOf clock runId placed).isEmpty = false := by
    rw [lineOf, Event.object, Json.compact_record]
    rfl
  have read : Record.ofLine? (lineOf clock runId placed) = some (record clock runId placed) :=
    Record.ofLine?_compact fits isWord
  simp [addLine, trimmed, nonempty, read]

theorem foldl_addLine {events : List (Event × Nat)} (fits : ∀ placed ∈ events, placed.1.Fits)
    (isWord : Word.isSigned clock.elapsed = true) (summary : Summary) :
    (events.map (lineOf clock runId)).foldl addLine summary =
      (events.map (record clock runId)).foldl add summary := by
  induction events generalizing summary with
  | nil => rfl
  | cons placed events inductionHypothesis =>
      rw [List.forall_mem_cons] at fits
      rw [List.map_cons, List.foldl_cons, addLine_lineOf summary fits.1 isWord,
        inductionHypothesis fits.2]
      rfl

/-- The summary of a trace file takes in what its events say. -/
theorem ofText_trace {events : List Event} (fits : ∀ event ∈ events, event.Fits)
    (isWord : Word.isSigned clock.elapsed = true)
    (short : ∀ line ∈ Text.splitOn Text.newline (Event.trace clock runId events),
      line.length < lineLimit) :
    ofText (Event.trace clock runId events) =
      (events.zipIdx.map (record clock runId)).foldl add empty := by
  rw [trace_eq, splitOn_lines] at short
  have fits' : ∀ placed ∈ events.zipIdx, placed.1.Fits :=
    fun placed member => fits placed.1 (List.fst_mem_of_mem_zipIdx member)
  -- The scanner stops at the first line that is too long, and there is none.
  have taken : lines (Event.trace clock runId events) =
      events.zipIdx.map (lineOf clock runId) ++ [[]] := by
    rw [lines, trace_eq, splitOn_lines, List.takeWhile_append_of_pos]
    · rfl
    · intro line member
      exact decide_eq_true (short line (List.mem_append_left _ member))
  rw [ofText, taken, List.foldl_append, foldl_addLine fits' isWord]
  rfl

end Summary

end Trace

end Parlance
