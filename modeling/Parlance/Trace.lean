import Parlance.Json.Reader
import Parlance.Json.Writer
import Parlance.Table
import Parlance.Text.Trim
import Parlance.Timestamp

namespace Parlance.Trace

/-!
Summaries of trace files: one JSON object a line, one line an event. Lines that
are no event are passed over.
-/

structure Record where
  stamp : Text
  runId : Text
  event : Text
  /-- The details, the last entry of a name first. -/
  data : List (Text × Json.Value)

namespace Record

def empty : Record := ⟨[], [], [], []⟩

/-- Where an event took place. The summary does not use it, but it has to have
the right shape. -/
def isSpan : Json.Value → Bool
  | .null => true
  | .record fields => fields.all fun (name, value) =>
    if Json.Value.sameName name (utf8 "file") then (value.asText? []).isSome
    else if ["startLine", "startCol", "endLine", "endCol"].any
        (fun number => Json.Value.sameName name (utf8 number)) then (value.asInt? 0).isSome
    else true
  | _ => false

/-- Details are added to those before; a null takes them away. -/
def addData? (before : List (Text × Json.Value)) : Json.Value → Option (List (Text × Json.Value))
  | .null => some []
  | .record fields =>
    if Json.Value.fieldsFinite fields then some (fields.reverse ++ before) else none
  | _ => none

def addField? (record : Record) (name : Text) (value : Json.Value) : Option Record :=
  if Json.Value.sameName name (utf8 "ts") then
    (value.asText? record.stamp).map fun stamp => { record with stamp }
  else if Json.Value.sameName name (utf8 "runId") then
    (value.asText? record.runId).map fun runId => { record with runId }
  else if Json.Value.sameName name (utf8 "event") then
    (value.asText? record.event).map fun event => { record with event }
  else if Json.Value.sameName name (utf8 "span") then
    if isSpan value then some record else none
  else if Json.Value.sameName name (utf8 "data") then
    (addData? record.data value).map fun data => { record with data }
  else some record

/-- The event of a line. A null is an event without anything. -/
def ofLine? (line : Text) : Option Record :=
  match Json.read? line with
  | some .null => some empty
  | some (.record fields) =>
    fields.foldlM (fun record (name, value) => record.addField? name value) empty
  | _ => none

def detail? (record : Record) (name : Text) : Option Json.Value :=
  (record.data.find? (·.1 == name)).map (·.2)

end Record

structure Summary where
  runId : Text
  events : Nat
  statements : Nat
  calls : Nat
  callsByName : Table Nat
  prints : Nat
  deepest : Int
  succeeded? : Option Bool
  startTime : Text
  endTime : Text

namespace Summary

def empty : Summary :=
  ⟨[], 0, 0, 0, .empty, 0, 0, none, [], []⟩

def addCall (summary : Summary) (record : Record) : Summary :=
  let callsByName :=
    match record.detail? (utf8 "fn") with
    | some (.text name) =>
      summary.callsByName.insert name ((summary.callsByName.get? name).getD 0 + 1)
    | _ => summary.callsByName
  let deepest :=
    match record.detail? (utf8 "depth") with
    | some (.number spelling) =>
      match Json.float? spelling with
      | some (negative, size) => max summary.deepest (size.truncated negative)
      | none => summary.deepest
    | _ => summary.deepest
  { summary with calls := summary.calls + 1, callsByName, deepest }

def addKind (summary : Summary) (record : Record) : Summary :=
  if record.event = utf8 "run_start" then
    if summary.startTime.isEmpty then { summary with startTime := record.stamp } else summary
  else if record.event = utf8 "run_end" then
    let succeeded? :=
      match record.detail? (utf8 "succeeded") with
      | some (.bool value) => some value
      | _ => summary.succeeded?
    { summary with endTime := record.stamp, succeeded? }
  else if record.event = utf8 "stmt_start" then
    { summary with statements := summary.statements + 1 }
  else if record.event = utf8 "fn_call_start" then summary.addCall record
  else if record.event = utf8 "print" then { summary with prints := summary.prints + 1 }
  else summary

/-- Takes an event in. The first run that has a name gives it to the summary. -/
def add (summary : Summary) (record : Record) : Summary :=
  addKind { summary with
    events := summary.events + 1
    runId := if summary.runId.isEmpty then record.runId else summary.runId } record

/-- The longest line that is read, and one byte more. -/
def lineLimit : Nat := 65536

/-- The lines up to one that is too long. -/
def lines (text : Text) : List Text :=
  (Text.splitOn Text.newline text).takeWhile fun line => line.length < lineLimit

def addLine (summary : Summary) (line : Text) : Summary :=
  let trimmed := Text.trim line
  if trimmed.isEmpty then summary
  else
    match Record.ofLine? trimmed with
    | some record => summary.add record
    | none => summary

def ofText (text : Text) : Summary :=
  (lines text).foldl addLine empty

/-- How long the run took; nothing if a time is missing or cannot be read. -/
def duration (summary : Summary) : Int :=
  match Timestamp.read? summary.startTime, Timestamp.read? summary.endTime with
  | some start, some stop => Timestamp.milliseconds start stop
  | _, _ => 0

def data (summary : Summary) : Data :=
  let time (name : String) (stamp : Text) : List (Text × Data) :=
    if stamp.isEmpty then [] else [(utf8 name, .text stamp)]
  .record (
    [(utf8 "runId", .text summary.runId), (utf8 "totalEvents", .int summary.events),
      (utf8 "statements", .int summary.statements), (utf8 "functionCalls", .int summary.calls),
      (utf8 "callsByName", .record (summary.callsByName.entries.map fun (name, count) =>
        (name, .int count))),
      (utf8 "prints", .int summary.prints), (utf8 "maxDepth", .int summary.deepest)] ++
    (match summary.succeeded? with
      | some value => [(utf8 "succeeded", .bool value)]
      | none => []) ++
    time "startTime" summary.startTime ++ time "endTime" summary.endTime ++
    [(utf8 "durationMs", .int summary.duration)])

def json (summary : Summary) : Text :=
  Json.compact summary.data

def text (summary : Summary) : Text :=
  let row (name : String) (value : Text) : Text := utf8 name ++ value ++ [Text.newline]
  row "Run: " summary.runId ++
    row "Events: " (Text.ofNat summary.events) ++
    row "Statements: " (Text.ofNat summary.statements) ++
    row "Calls: " (Text.ofNat summary.calls ++ utf8 " (max depth " ++ Text.ofInt summary.deepest ++
      utf8 ")") ++
    summary.callsByName.entries.flatMap (fun (name, count) =>
      row "  " (name ++ utf8 ": " ++ Text.ofNat count)) ++
    row "Prints: " (Text.ofNat summary.prints) ++
    (match summary.succeeded? with
      | some value => row "Succeeded: " (Json.bool value)
      | none => []) ++
    if 0 < summary.duration then row "Duration: " (Text.ofInt summary.duration ++ utf8 "ms") else []

end Summary

end Parlance.Trace
