import Parlance.Files
import Parlance.Json.Reader
import Parlance.Run.Limits

namespace Parlance

/-!
Scenarios: directories that hold a program and a file with the command to run
on it, the limits of the run and what to expect.
-/

structure Scenario where
  command : List Text
  /-- Without limits a run is not bounded. -/
  limits? : Option Limits
  exitCode : Int
  deriving DecidableEq

namespace Scenario

def fileName : Text := utf8 "scenario.json"

def limits (scenario : Scenario) : Limits :=
  scenario.limits?.getD .none

def isCalled (name : Text) (expected : String) : Bool :=
  Json.Value.sameName name (utf8 expected)

/-- A list of texts that may be given more than once. What a longer list has left
behind the end of a shorter one is not forgotten. -/
structure Slots where
  items : List Text := []
  behind : List Text := []

/-- A list of texts in place of an earlier one. A null item keeps what was at its
place before. A list without items forgets everything. -/
def Slots.fill? (slots : Slots) : Json.Value → Option Slots
  | .null => some {}
  | .list [] => some {}
  | .list values => do
    let before := slots.items ++ slots.behind
    let items ← values.zipIdx.mapM fun (value, index) => value.asText? (before[index]?.getD [])
    some ⟨items, before.drop items.length⟩
  | _ => none

def addLimit? (limits : Limits) (name : Text) (value : Json.Value) : Option Limits :=
  if isCalled name "maxCallDepth" then
    (value.asInt? limits.callDepth).map fun callDepth => { limits with callDepth }
  else if isCalled name "maxSteps" then
    (value.asInt? limits.steps).map fun steps => { limits with steps }
  else if isCalled name "timeMs" then
    (value.asInt? limits.time).map fun time => { limits with time }
  else some limits

def limitsOf? (before : Option Limits) : Json.Value → Option (Option Limits)
  | .null => some none
  | .record fields =>
    (fields.foldlM (fun limits (name, value) => addLimit? limits name value)
      (before.getD .none)).map some
  | _ => none

def isRemark : Json.Value → Bool
  | .null => true
  | .record fields => fields.all fun (name, value) =>
    if isCalled name "description" then (value.asText? []).isSome
    else if isCalled name "tags" then (Slots.fill? {} value).isSome
    else true
  | _ => false

/-- One expectation. Of those on the output only the shape matters here. -/
def addExpectation? (exitCode : Int) (name : Text) (value : Json.Value) : Option Int :=
  if isCalled name "exitCode" then value.asInt? exitCode
  else if ["stdoutText", "stdoutContains", "stderrContains"].any (isCalled name) then
    (value.asText? []).map fun _ => exitCode
  else some exitCode

def exitCodeOf? (before : Int) : Json.Value → Option Int
  | .null => some before
  | .record fields =>
    fields.foldlM (fun exitCode (name, value) => addExpectation? exitCode name value) before
  | _ => none

structure Draft where
  command : Slots := {}
  limits? : Option Limits := none
  exitCode : Int := 0

def Draft.addField? (draft : Draft) (name : Text) (value : Json.Value) : Option Draft :=
  if isCalled name "cmd" then
    (draft.command.fill? value).map fun command => { draft with command }
  else if isCalled name "limits" then
    (limitsOf? draft.limits? value).map fun limits? => { draft with limits? }
  else if isCalled name "meta" then
    if isRemark value then some draft else none
  else if isCalled name "expect" then
    (exitCodeOf? draft.exitCode value).map fun exitCode => { draft with exitCode }
  else some draft

def Draft.finished (draft : Draft) : Scenario :=
  ⟨draft.command.items, draft.limits?, draft.exitCode⟩

def ofJson? : Json.Value → Option Scenario
  | .null => some (Draft.finished {})
  | .record fields =>
    (fields.foldlM (fun draft (name, value) => Draft.addField? draft name value) {}).map
      Draft.finished
  | _ => none

inductive Fault where
  /-- The file cannot be read or is no scenario. -/
  | unreadable
  | emptyCommand (directory : Text)

def Fault.message : Fault → Text
  | unreadable => utf8 "unreadable scenario"
  | emptyCommand directory => utf8 "scenario " ++ directory ++ utf8 " has an empty cmd"

def load (files : Files) (directory : Text) : Except Fault Scenario :=
  match (files.read (Path.join [directory, fileName])).toOption >>= Json.read? >>= ofJson? with
  | none => .error .unreadable
  | some scenario =>
    if scenario.command.isEmpty then .error (.emptyCommand directory) else .ok scenario

def directories (files : Files) (root : Text) : Except Files.Failure (List Text) :=
  match files.list root with
  | .error failure => .error failure
  | .ok names =>
    let found := (names.map fun name => Path.join [root, name]).filter fun directory =>
      match files.find directory, files.find (Path.join [directory, fileName]) with
      | .ok .directory, .ok _ => true
      | _, _ => false
    .ok (found.mergeSort fun a b => !Text.before b a)

inductive ProgramFault where
  | unreadable (path : Text) (failure : Files.Failure)
  | unnamed (command : List Text)

def ProgramFault.message : ProgramFault → Text
  | unreadable path failure => failure.message path
  | unnamed command =>
    utf8 "scenario cmd [" ++ Text.join (utf8 " ") command ++ utf8 "] names no program file"

/-- Source and name of the program: the first argument behind the command that is
no option names it. -/
def program (files : Files) (directory : Text) (scenario : Scenario) :
    Except ProgramFault (Text × Text) :=
  match scenario.command.tail.find? fun argument => !Text.hasPrefix (utf8 "-") argument with
  | none => .error (.unnamed scenario.command)
  | some name =>
    let path := Path.join [directory, name]
    match files.read path with
    | .ok source => .ok (source, name)
    | .error failure => .error (.unreadable path failure)

end Scenario

end Parlance
