import Parlance.Settings

namespace Parlance.Command

/-! What a command line asks for. Of several file names the last one counts. -/

inductive Presentation where
  | print
  | overwrite
  | compare
  deriving DecidableEq

inductive Request where
  /-- Runs a program and records its events if there is a file for them. -/
  | run (file : Text) (pretty : Bool) (trace? : Option Text)
  | check (file : Text) (pretty : Bool)
  | format (file : Text) (presentation : Presentation)
  | tree (file : Text) (asYaml : Bool)
  | interact (pretty : Bool)
  | summarize (file : Text) (asText : Bool)
  | settings (format : Settings.Format)
  | keywords
  /-- A help topic, or the quick reference. -/
  | help (topic? : Option Text)
  deriving DecidableEq

inductive Misuse where
  | noCommand
  | unknownCommand (name : Text)
  | noTracePath
  | usage (pattern : String)
  deriving DecidableEq

def Misuse.message : Misuse → Text
  | noCommand =>
    utf8 "usage: uytin <command> [options]\ncommands: run, check, fmt, ast, repl, trace, config, help\n"
  | unknownCommand name => utf8 "Unknown command: " ++ name ++ utf8 "\n"
  | noTracePath => utf8 "error: --trace requires a file path\n"
  | usage pattern => utf8 "usage: uytin " ++ utf8 pattern ++ utf8 "\n"

/-- A lone dash stands for the standard input. -/
def standardInput : Text := utf8 "-"

def isOption (argument : Text) : Bool :=
  Text.hasPrefix (utf8 "-") argument

def isFileName (argument : Text) : Bool :=
  !isOption argument

def isSourceName (argument : Text) : Bool :=
  argument == standardInput || isFileName argument

/-- The last argument that names a file. An empty name is none. -/
def fileName? (accepts : Text → Bool) (arguments : List Text) : Option Text :=
  match (arguments.filter accepts).getLast? with
  | some name => if name.isEmpty then none else some name
  | none => none

def hasOption (name : String) (arguments : List Text) : Bool :=
  arguments.contains (utf8 name)

def orUsage (pattern : String) : Option Text → Except Misuse Text
  | some file => .ok file
  | none => .error (.usage pattern)

/-- Takes out the option for the trace file with the path behind it. The last
path counts. -/
def splitTrace : (path : Text) → List Text → Except Misuse (Text × List Text)
  | path, [] => .ok (path, [])
  | path, argument :: rest =>
    if argument = utf8 "--trace" then
      match rest with
      | [] => .error .noTracePath
      | next :: rest => splitTrace next rest
    else
      match splitTrace path rest with
      | .ok (found, others) => .ok (found, argument :: others)
      | .error misuse => .error misuse

namespace Request

def ofRun (arguments : List Text) : Except Misuse Request := do
  let (trace, others) ← splitTrace [] arguments
  let file ← orUsage "run <file|-> [--pretty] [--trace <file.jsonl>]" (fileName? isSourceName others)
  return .run file (hasOption "--pretty" others) (if trace.isEmpty then none else some trace)

def ofCheck (arguments : List Text) : Except Misuse Request := do
  let file ← orUsage "check <file|-> [--pretty]" (fileName? isSourceName arguments)
  return .check file (hasOption "--pretty" arguments)

def ofFormat (arguments : List Text) : Except Misuse Request := do
  let pattern := "fmt <file> [--write | --diff]"
  let file ← orUsage pattern (fileName? isFileName arguments)
  match hasOption "--write" arguments, hasOption "--diff" arguments with
  | true, true => .error (.usage pattern)
  | true, false => return .format file .overwrite
  | false, true => return .format file .compare
  | false, false => return .format file .print

def ofTree (arguments : List Text) : Except Misuse Request := do
  let file ← orUsage "ast <file|-> [--yaml]" (fileName? isSourceName arguments)
  return .tree file (hasOption "--yaml" arguments)

/-- The last of the two options for the form counts. -/
def ofSummarize (arguments : List Text) : Except Misuse Request := do
  let file ← orUsage "trace <file.jsonl> [--json|--text]" (fileName? isFileName arguments)
  let forms := arguments.filter fun argument => argument == utf8 "--text" || argument == utf8 "--json"
  return .summarize file (forms.getLast? == some (utf8 "--text"))

def ofSettings (arguments : List Text) : Request :=
  .settings (if hasOption "--yaml" arguments then .yaml else .toml)

def ofHelp (arguments : List Text) : Request :=
  if hasOption "--index" arguments then .keywords else .help (fileName? isFileName arguments)

def ofArguments : List Text → Except Misuse Request
  | [] => .error .noCommand
  | name :: arguments =>
    if name = utf8 "run" then ofRun arguments
    else if name = utf8 "check" then ofCheck arguments
    else if name = utf8 "fmt" then ofFormat arguments
    else if name = utf8 "ast" then ofTree arguments
    else if name = utf8 "repl" then .ok (.interact (hasOption "--pretty" arguments))
    else if name = utf8 "trace" then ofSummarize arguments
    else if name = utf8 "config" then .ok (ofSettings arguments)
    else if name = utf8 "help" ∨ name = utf8 "--help" ∨ name = utf8 "-h" then .ok (ofHelp arguments)
    else .error (.unknownCommand name)

end Request

end Parlance.Command
