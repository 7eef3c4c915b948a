import Parlance.Settings.Document

namespace Parlance.Settings

/-! Settings out of text. Anything in it that is not a setting is refused. -/

/-- Names in TOML documents match in either case. -/
def Place.descend? (place : Place) : List Text → Option Place
  | [] => some place
  | name :: names => (place.enter? (Text.lower name)).bind fun place => place.descend? names

def assignValue? (settings : Settings) (place : Place) (value : Value) : Option Settings :=
  match place with
  | .field field => settings.set? field value
  | _ => none

mutual

def assignToml? (settings : Settings) (place : Place) : Toml.Value → Option Settings
  | .table entries =>
    match place with
    | .field _ => none
    | _ => assignEntries? settings place entries
  | .int value => assignValue? settings place (.int value)
  | .bool value => assignValue? settings place (.bool value)
  | .text value => assignValue? settings place (.text value)

def assignEntries? (settings : Settings) (place : Place) :
    List (List Text × Toml.Value) → Option Settings
  | [] => some settings
  | (path, value) :: entries => do
    let settings ← assignToml? settings (← place.descend? path) value
    assignEntries? settings place entries

end

/-- The items of a document below the header that leads to `place`. -/
def assignItems? (settings : Settings) (place : Place) : List Toml.Item → Option Settings
  | [] => some settings
  | .header path :: items =>
    (Place.root.descend? path).bind fun place => assignItems? settings place items
  | .entry path value :: items => do
    let settings ← assignToml? settings (← place.descend? path) value
    assignItems? settings place items

def ofToml? (text : Text) : Option Settings :=
  (Toml.read? text).bind (assignItems? defaults .root)

def read (text : Text) (format : Format) : Except Fault Settings :=
  let settings? :=
    match format with
    | .toml => ofToml? text
    | .yaml => ofYaml? text
  match settings? with
  | none => .error .malformed
  | some settings =>
    match settings.validate with
    | .ok () => .ok settings
    | .error fault => .error fault

def readNamed (text format : Text) : Except Fault Settings :=
  match Format.ofName? format with
  | some format => read text format
  | none => .error (.unsupported format)

def writeNamed (settings : Settings) (format : Text) : Except Fault Text :=
  match Format.ofName? format with
  | some format => .ok (settings.write format)
  | none => .error (.unsupported format)

end Parlance.Settings
