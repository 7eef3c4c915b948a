import Parlance.Files
import Parlance.Settings.Reader

namespace Parlance.Settings

/-! Where settings are looked for: the project's directory, then the user's home. -/

structure Source where
  path : Text
  format : Format

inductive LoadFault where
  | unreadable (path : Text) (failure : Files.Failure)
  | rejected (path : Text) (fault : Fault)

namespace LoadFault

def subject : LoadFault → Text
  | unreadable path _ => utf8 "read config " ++ Text.doubleQuoted path
  | rejected path _ => utf8 "parse config " ++ Text.doubleQuoted path

def message (fault : LoadFault) : Text :=
  fault.subject ++ utf8 ": " ++
    match fault with
    | unreadable path failure => failure.message path
    | rejected _ fault => fault.message

end LoadFault

/-- The files in the order in which they are tried. Without a home there are
only those of the project. -/
def candidates (project home : Text) : List Source :=
  let projectFiles : List Source :=
    [⟨Path.join [project, utf8 ".uytin.toml"], .toml⟩,
      ⟨Path.join [project, utf8 ".uytin.yaml"], .yaml⟩]
  if home.isEmpty then projectFiles
  else projectFiles ++ [⟨Path.join [home, utf8 ".uytin", utf8 "config.toml"], .toml⟩]

/-- The first file that exists decides; without one the defaults hold. -/
def loadFrom (files : Files) : List Source → Except LoadFault (Settings × Option Source)
  | [] => .ok (defaults, none)
  | source :: sources =>
    match files.read source.path with
    | .error .missing => loadFrom files sources
    | .error failure => .error (.unreadable source.path failure)
    | .ok text =>
      match read text source.format with
      | .ok settings => .ok (settings, some source)
      | .error fault => .error (.rejected source.path fault)

def load (files : Files) (project home : Text) : Except LoadFault (Settings × Option Source) :=
  loadFrom files (candidates project home)

/-- The file that keeps the history of the interactive loop, if there is one. A
tilde in front stands for the home. -/
def historyPath (settings : Settings) (home : Text) : Text :=
  if settings.historyFile.isEmpty then
    if home.isEmpty then [] else Path.join [home, utf8 ".uytin", utf8 "history"]
  else if Text.hasPrefix (utf8 "~/") settings.historyFile && !home.isEmpty then
    Path.join [home, settings.historyFile.drop 2]
  else settings.historyFile

end Parlance.Settings
