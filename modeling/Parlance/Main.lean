import Parlance.Command
import Std.Time.DateTime.Timestamp

namespace Parlance.Shell

/-!
The command on a real system. It collects the files that a command line can
reach, leaves the work to the command and stores what has changed.
-/

def stringOf (text : Text) : String :=
  (String.fromUTF8? ⟨text.toArray⟩).getD ""

def textOf (bytes : ByteArray) : Text :=
  bytes.data.toList

def lookAt (path : Text) : IO (Option Files.Entry) := do
  match ← (IO.FS.Handle.mk (stringOf path) .read).toBaseIO with
  | .error _ => return none
  | .ok handle =>
    match ← handle.readBinToEnd.toBaseIO with
    | .ok bytes => return some (.file (textOf bytes))
    | .error _ => return some .directory

def collect (files : Files) (path : Text) : IO Files := do
  let root : List Text := if Path.isAbsolute path then [[Path.slash]] else []
  let mut files := files
  let mut here := root
  let mut walked := root
  for step in Path.parts path do
    here := if step = utf8 ".." then Files.parent here else here ++ [step]
    walked := walked ++ [step]
    match files.at? here with
    | some (.device _) => pure ()
    | _ =>
      match ← lookAt (Text.join [Path.slash] walked) with
      | some entry => files := files.put here entry
      | none => pure ()
  return files

def reachable (project home : Text) (arguments : List Text) : IO Files := do
  let settings := (Settings.candidates project home).map (·.path)
  (settings ++ arguments.filter Command.isFileName).foldlM collect .system

/-- Nanoseconds since the beginning of the year zero. -/
def now : IO Nat := do
  let stamp ← Std.Time.Timestamp.now
  let epoch := Calendar.dayNumber 1970 1 1 * 86400
  return epoch * 1000000000 + stamp.toNanosecondsSinceUnixEpoch.toInt.toNat

def freshName : IO Text := do
  let digit (text : Text) (place : Nat) : IO Text := do
    let value ← if place = 12 then pure 4 else if place = 16 then IO.rand 8 11 else IO.rand 0 15
    let dash := if [8, 12, 16, 20].contains place then utf8 "-" else []
    return text ++ dash ++ Text.hexDigits false 1 value
  (List.range 32).foldlM digit []

partial def readAll (stream : IO.FS.Stream) (read : ByteArray) : IO ByteArray := do
  let chunk ← stream.read 65536
  if chunk.isEmpty then return read else readAll stream (read ++ chunk)

def readInput : IO (Except Text Text) := do
  match ← (readAll (← IO.getStdin) .empty).toBaseIO with
  | .ok bytes => return .ok (textOf bytes)
  | .error error => return .error (utf8 (toString error))

def send (stream : IO.FS.Stream) (text : Text) : IO Unit := do
  stream.write ⟨text.toArray⟩
  stream.flush

/-- Stores the files that a command has changed and shows what it says. -/
def settle (before : Files) (outcome : Command.Outcome) : IO UInt32 := do
  for (parts, content) in before.changes outcome.files do
    IO.FS.writeBinFile (stringOf (Text.join [Path.slash] parts)) ⟨content.toArray⟩
  send (← IO.getStdout) outcome.output
  send (← IO.getStderr) outcome.errors
  return outcome.status.code.toUInt32

def run (world : Command.World) (file : Text) (pretty : Bool) (trace? : Option Text) :
    IO Command.Outcome := do
  match world.prepare file pretty with
  | .error errors => return world.finish .misused [] errors
  | .ok prepared =>
    let start ← now
    let result ← IO.lazyPure fun _ => prepared.result
    let stop ← now
    let clock : Clock :=
      ⟨fun index => Timestamp.write (if index = 0 then start else stop), (stop - start) / 1000000⟩
    return { world with clock }.conclude prepared.pretty trace? result

/-- Reads a line; `none` is the end of the input. -/
def readLine : IO (Option Repl.Input) := do
  match ← (← IO.getStdin).getLine.toBaseIO with
  | .error _ => return some .failure
  | .ok text =>
    if text.isEmpty then return none
    else
      let line := utf8 text
      return some (.line (if line.getLast? = some Text.newline then line.dropLast else line))

/-- The interactive loop. The result is what the history gains. -/
partial def converse (look : Repl.Look) (state : Repl.State) (history : List Text) :
    IO (List Text) := do
  send (← IO.getStdout) (Repl.promptFor look state)
  let step := Repl.advance look state (← readLine)
  let mut history := history
  for output in step.output do
    match output with
    | .prompt text | .print text => send (← IO.getStdout) text
    | .report text => send (← IO.getStderr) text
    | .remember text => history := history ++ [text]
  if step.ended then return history else converse look step.state history

/-- Adds entries to the history, if there is a place for it. -/
def remember (path : Text) (entries : List Text) : IO Unit := do
  if path.isEmpty || entries.isEmpty then return
  let directory := Text.join [Path.slash] ((Text.splitOn Path.slash path).dropLast)
  try
    if !directory.isEmpty then IO.FS.createDirAll (stringOf directory)
    let handle ← IO.FS.Handle.mk (stringOf path) .append
    handle.write ⟨(entries.flatMap Command.World.line).toArray⟩
  catch _ => return

def interact (world : Command.World) (pretty : Bool) : IO UInt32 := do
  match world.settings pretty with
  | .error errors =>
    send (← IO.getStderr) errors
    return Command.Status.misused.code.toUInt32
  | .ok (settings, _) =>
    send (← IO.getStdout) Repl.banner
    let look : Repl.Look := ⟨settings.prompt, pretty || settings.pretty, true⟩
    remember (settings.historyPath world.home) (← converse look (.start settings.limits world.capacity) [])
    return Command.Status.success.code.toUInt32

end Parlance.Shell

open Parlance in
def main (args : List String) : IO UInt32 := do
  let arguments := args.map utf8
  let project := utf8 (← IO.currentDir).toString
  let home := utf8 ((← IO.getEnv "HOME").getD "")
  let files ← Shell.reachable project home arguments
  let input ← if arguments.contains Command.standardInput then Shell.readInput else pure (.ok [])
  let runId ← Shell.freshName
  let world : Command.World :=
    ⟨files, project, home, input, ⟨fun _ => [], 0⟩, runId, Limits.usualCapacity, Diff.unified⟩
  match Command.Request.ofArguments arguments with
  | .ok (.interact pretty) => Shell.interact world pretty
  | .ok (.run file pretty trace?) => Shell.settle files (← Shell.run world file pretty trace?)
  | _ => Shell.settle files (world.obey arguments)
