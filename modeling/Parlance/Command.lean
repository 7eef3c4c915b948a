import Parlance.Command.Request
import Parlance.Diff.Unified
import Parlance.Help
import Parlance.Repl
import Parlance.Settings.Search
import Parlance.Trace
import Parlance.Tree.Outline

namespace Parlance.Command

/-!
Commands as functions: from what they find, the files, the standard input and
the clock, to what they leave, the two output channels, a status and the files.
-/

structure World where
  files : Files
  /-- The directories of the project and of the user; an empty home is none. -/
  project : Text
  home : Text
  /-- The standard input, or why it cannot be read. -/
  input : Except Text Text
  clock : Clock
  runId : Text
  /-- How many calls the machine holds open. -/
  capacity : Nat := Limits.usualCapacity
  /-- The difference of two texts, with the names that they have in it. -/
  difference (name name' text text' : Text) : Text := Diff.unified name name' text text'

inductive Status where
  | success
  /-- It was not asked for properly, or a file or the settings were not usable. -/
  | misused
  /-- The source text was rejected. -/
  | rejected
  /-- The run stopped early. -/
  | halted
  /-- The machine broke down. -/
  | crashed
  deriving DecidableEq

def Status.code : Status → Nat
  | success => 0
  | misused => 1
  | rejected => 2
  | halted => 4
  | crashed => 2

structure Outcome where
  status : Status
  output : Text
  errors : Text
  files : Files

namespace World

def finish (world : World) (status : Status) (output errors : Text) : Outcome :=
  ⟨status, output, errors, world.files⟩

def line (text : Text) : Text :=
  text ++ [Text.newline]

def diagnosed (pretty : Bool) (diagnostics : List Diagnostic) : Text :=
  line (Diagnostic.renderAll pretty diagnostics)

/-- A diagnostic that is about no place in a program. -/
def trouble (pretty : Bool) (code : Code) (message : Text) : Text :=
  diagnosed pretty [⟨code.text, message, none, []⟩]

def inputName : Text := utf8 "<stdin>"

def cannotRead (file : Text) : Text :=
  utf8 "cannot read file: " ++ file

def source (world : World) (file : Text) (pretty : Bool) : Except Text (Text × Text) :=
  if file = standardInput then
    match world.input with
    | .ok text => .ok (text, inputName)
    | .error reason => .error (utf8 "error reading stdin: " ++ line reason)
  else
    match world.files.read file with
    | .ok text => .ok (text, file)
    | .error _ => .error (trouble pretty .io (cannotRead file))

def settings (world : World) (pretty : Bool) : Except Text (Settings × Option Settings.Source) :=
  match Settings.load world.files world.project world.home with
  | .ok found => .ok found
  | .error fault => .error (trouble pretty .config fault.message)

def write (world : World) (path content : Text) : Except Text Files :=
  match world.files.write path content with
  | .ok files => .ok files
  | .error failure => .error (failure.message path)

structure Prepared where
  pretty : Bool
  session : Session
  name : Text
  text : Text

def Prepared.result (prepared : Prepared) : Except SourceError Report :=
  (prepared.session.run .unlimited .live prepared.name prepared.text).1

def prepare (world : World) (file : Text) (pretty : Bool) : Except Text Prepared :=
  match world.settings pretty with
  | .error errors => .error errors
  | .ok (settings, _) =>
    let pretty := pretty || settings.pretty
    match world.source file pretty with
    | .error errors => .error errors
    | .ok (text, name) => .ok ⟨pretty, .start settings.limits world.capacity, name, text⟩

def verdict (pretty : Bool) : Except SourceError Report → Status × Text
  | .error error => (.rejected, diagnosed pretty [error.diagnostic])
  | .ok report =>
    match report.outcome with
    | .error (.fault reason) => (.halted, diagnosed pretty [reason.diagnostic])
    | .error .overflow => (.crashed, [])
    | .ok _ => (.success, [])

def printed : Except SourceError Report → Text
  | .error _ => []
  | .ok report => report.output

def shownValue : Except SourceError Report → Text
  | .error _ => []
  | .ok report =>
    match report.outcome with
    | .error _ => []
    | .ok completion =>
      if completion.value.isNothing then [] else line (Json.compact completion.value.data)

/-- What a trace file gets: nothing if the program never started. -/
def traceText (world : World) : Except SourceError Report → Text
  | .error _ => []
  | .ok report => Event.trace world.clock world.runId report.events

/-- Reports a run. A trace file that cannot be made stops everything; one that
cannot be written spoils a run that was a success. -/
def conclude (world : World) (pretty : Bool) (trace? : Option Text)
    (result : Except SourceError Report) : Outcome :=
  let (status, errors) := verdict pretty result
  let output := printed result ++ shownValue result
  match trace? with
  | none => world.finish status output errors
  | some path =>
    match world.write path [], world.write path (world.traceText result) with
    | .error _, _ =>
      world.finish .misused [] (trouble pretty .io (utf8 "cannot create trace file: " ++ path))
    | .ok _, .ok files => ⟨status, output, errors, files⟩
    | .ok _, .error reason =>
      let complaint := trouble pretty .io
        (utf8 "cannot write trace file " ++ path ++ utf8 ": " ++ reason)
      if status = .success then world.finish .misused (printed result) complaint
      else world.finish status output (complaint ++ errors)

def run (world : World) (file : Text) (pretty : Bool) (trace? : Option Text) : Outcome :=
  match world.prepare file pretty with
  | .error errors => world.finish .misused [] errors
  | .ok prepared => world.conclude prepared.pretty trace? prepared.result

def check (world : World) (file : Text) (pretty : Bool) : Outcome :=
  match world.source file pretty with
  | .error errors => world.finish .misused [] errors
  | .ok (text, name) =>
    match (Session.start .none).check name text with
    | [] => world.finish .success (utf8 (if pretty then "No problems found.\n" else "[]\n")) []
    | diagnostics =>
      let status := if diagnostics.all (·.isWarning) then .success else .rejected
      world.finish status [] (diagnosed pretty diagnostics)

def commentWarning : Text :=
  utf8 "warning: comments are not preserved by the formatter\n"

def format (world : World) (file : Text) (presentation : Presentation) : Outcome :=
  match world.source file false with
  | .error errors => world.finish .misused [] errors
  | .ok (text, name) =>
    match Parlance.format name text with
    | .error error => world.finish .rejected [] (diagnosed false [error.diagnostic])
    | .ok formatted =>
      let warning := if hasComments text then commentWarning else []
      match presentation with
      | .print => world.finish .success formatted warning
      | .compare =>
        world.finish .success (world.difference file (file ++ utf8 " (formatted)") text formatted) warning
      | .overwrite =>
        match world.write file formatted with
        | .ok files => ⟨.success, [], warning, files⟩
        | .error reason =>
          world.finish .misused [] (warning ++ utf8 "error writing file: " ++ line reason)

def tree (world : World) (file : Text) (asYaml : Bool) : Outcome :=
  match world.source file false with
  | .error errors => world.finish .misused [] errors
  | .ok (text, name) =>
    match parse name text with
    | .error error => world.finish .rejected [] (diagnosed false [error.diagnostic])
    | .ok program =>
      let outline := program.outline
      world.finish .success
        (if asYaml then Yaml.document outline else line (Json.indented 0 outline)) []

/-- A directory can be opened like a file but has no lines; what never ends has
no line that ends. -/
def traceSource (world : World) (file : Text) : Except Files.Failure Text :=
  match world.files.read file with
  | .error .isDirectory | .error .endless => .ok []
  | found => found

def summarize (world : World) (file : Text) (asText : Bool) : Outcome :=
  match world.traceSource file with
  | .error _ => world.finish .misused [] (trouble false .io (cannotRead file))
  | .ok text =>
    let summary := Trace.Summary.ofText text
    world.finish .success (if asText then summary.text else line summary.json) []

def showSettings (world : World) (format : Settings.Format) : Outcome :=
  match world.settings true with
  | .error errors => world.finish .misused [] errors
  | .ok (settings, source?) =>
    let origin := match source? with
      | some source => source.path
      | none => utf8 "defaults"
    world.finish .success (utf8 "# source: " ++ line origin ++ settings.write format) []

def help (world : World) : Option Text → Outcome
  | none => world.finish .success quickReference []
  | some query =>
    match Topic.find query with
    | .ok topic => world.finish .success topic.content []
    | .error fault => world.finish .misused [] (line fault.message)

def inputs (world : World) : List Repl.Input :=
  match world.input with
  | .error _ => [.failure]
  | .ok [] => []
  | .ok text =>
    let body := if text.getLast? = some Text.newline then text.dropLast else text
    (Text.splitOn Text.newline body).map .line

/-- The loop on an input that is all there from the start. -/
def interact (world : World) (pretty : Bool) : Outcome :=
  match world.settings pretty with
  | .error errors => world.finish .misused [] errors
  | .ok (settings, _) =>
    let look : Repl.Look := ⟨settings.prompt, pretty || settings.pretty, true⟩
    let shown := (Repl.run look (.start settings.limits world.capacity) world.inputs).1
    let output := shown.flatMap fun
      | .prompt text | .print text => text
      | _ => []
    let errors := shown.flatMap fun
      | .report text => text
      | _ => []
    world.finish .success (Repl.banner ++ output) errors

def perform (world : World) : Request → Outcome
  | .run file pretty trace? => world.run file pretty trace?
  | .check file pretty => world.check file pretty
  | .format file presentation => world.format file presentation
  | .tree file asYaml => world.tree file asYaml
  | .interact pretty => world.interact pretty
  | .summarize file asText => world.summarize file asText
  | .settings format => world.showSettings format
  | .keywords => world.finish .success keywordIndex []
  | .help topic? => world.help topic?

def obey (world : World) (arguments : List Text) : Outcome :=
  match Request.ofArguments arguments with
  | .ok request => world.perform request
  | .error misuse => world.finish .misused [] misuse.message

end World

end Parlance.Command
