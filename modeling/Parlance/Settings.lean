import Parlance.Data
import Parlance.Run.Limits
import Parlance.Text.Quoted
import Parlance.Text.Trim
import Parlance.Toml
import Parlance.Yaml.Writer

namespace Parlance

/-!
What a user can set: limits of runs, the look of reports, and the prompt and
history of the interactive loop. Settings are written as TOML or YAML in three
sections; what a document leaves out keeps its default.
-/

structure Settings where
  limits : Limits
  pretty : Bool
  historyFile : Text
  prompt : Text
  deriving DecidableEq

namespace Settings

/-- Without settings only the depth of calls is limited. -/
def defaults : Settings :=
  ⟨⟨10000, 0, 0⟩, false, [], utf8 "uytin> "⟩

inductive Section where
  | limits
  | output
  | repl
  deriving DecidableEq

inductive Field where
  | maxCallDepth
  | maxSteps
  | timeMs
  | pretty
  | historyFile
  | prompt
  deriving DecidableEq

inductive Place where
  | root
  | within (part : Section)
  | field (field : Field)
  deriving DecidableEq

def Section.name : Section → Text
  | limits => utf8 "limits"
  | output => utf8 "output"
  | repl => utf8 "repl"

def Section.all : List Section :=
  [.limits, .output, .repl]

def Section.fields : Section → List Field
  | limits => [.maxCallDepth, .maxSteps, .timeMs]
  | output => [.pretty]
  | repl => [.historyFile, .prompt]

def Field.name : Field → Text
  | maxCallDepth => utf8 "max_call_depth"
  | maxSteps => utf8 "max_steps"
  | timeMs => utf8 "time_ms"
  | pretty => utf8 "pretty"
  | historyFile => utf8 "history_file"
  | prompt => utf8 "prompt"

def Place.enter? (place : Place) (name : Text) : Option Place :=
  match place with
  | root => (Section.all.find? (·.name == name)).map .within
  | within part => (part.fields.find? (·.name == name)).map .field
  | field _ => none

inductive Value where
  | int (value : Int)
  | bool (value : Bool)
  | text (value : Text)
  deriving DecidableEq

def get (settings : Settings) : Field → Value
  | .maxCallDepth => .int settings.limits.callDepth
  | .maxSteps => .int settings.limits.steps
  | .timeMs => .int settings.limits.time
  | .pretty => .bool settings.pretty
  | .historyFile => .text settings.historyFile
  | .prompt => .text settings.prompt

def set? (settings : Settings) : Field → Value → Option Settings
  | .maxCallDepth, .int value =>
    some { settings with limits := { settings.limits with callDepth := value } }
  | .maxSteps, .int value =>
    some { settings with limits := { settings.limits with steps := value } }
  | .timeMs, .int value => some { settings with limits := { settings.limits with time := value } }
  | .pretty, .bool value => some { settings with pretty := value }
  | .historyFile, .text value => some { settings with historyFile := value }
  | .prompt, .text value => some { settings with prompt := value }
  | _, _ => none

inductive Format where
  | toml
  | yaml
  deriving DecidableEq

def Format.name : Format → Text
  | toml => utf8 "toml"
  | yaml => utf8 "yaml"

def Format.ofName? (name : Text) : Option Format :=
  [toml, yaml].find? (·.name == name)

inductive Fault where
  /-- The document cannot be read, or says something that is not a setting. -/
  | malformed
  /-- Limits below zero, each with its value. -/
  | negative (limits : List (Field × Int))
  | unsupported (format : Text)

def Fault.message : Fault → Text
  | malformed => utf8 "malformed settings"
  | negative limits =>
    Text.join (utf8 "\n") (limits.map fun (field, value) =>
      utf8 "limits." ++ field.name ++ utf8 " must not be negative, got " ++ Text.ofInt value)
  | unsupported format => utf8 "unsupported config format " ++ Text.doubleQuoted format

def negativeLimits (settings : Settings) : List (Field × Int) :=
  [(.maxCallDepth, settings.limits.callDepth), (.maxSteps, settings.limits.steps),
    (.timeMs, settings.limits.time)].filter fun (_, value) => value < 0

def validate (settings : Settings) : Except Fault Unit :=
  let negative := settings.negativeLimits
  if negative.isEmpty then .ok () else .error (.negative negative)

def Value.data : Value → Data
  | int value => .int value
  | bool value => .bool value
  | text value => .text value

def Value.toml : Value → Text
  | int value => Text.ofInt value
  | bool true => utf8 "true"
  | bool false => utf8 "false"
  | text value => Toml.string value

def data (settings : Settings) : Data :=
  .record (Section.all.map fun part =>
    (part.name, .record (part.fields.map fun field => (field.name, (settings.get field).data))))

def toml (settings : Settings) : Text :=
  let writeField (field : Field) : Text :=
    field.name ++ utf8 " = " ++ (settings.get field).toml ++ utf8 "\n"
  let writeSection (part : Section) : Text :=
    utf8 "[" ++ part.name ++ utf8 "]\n" ++ part.fields.flatMap writeField
  Text.join (utf8 "\n") (Section.all.map writeSection)

def write (settings : Settings) : Format → Text
  | .toml => settings.toml
  | .yaml => Yaml.document settings.data

end Settings

end Parlance
