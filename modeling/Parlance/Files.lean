import Parlance.Path

namespace Parlance

/-!
The files of a directory and of those around it. Commands read and write them as
a value, and what they leave is compared with what they found.
-/

/-- Files that every system has. Both take what is written to them and keep
nothing; the full one says that there was no room for it. -/
inductive Device where
  | null
  | full
  deriving DecidableEq

inductive Files.Entry where
  | file (content : Text)
  | directory
  | device (device : Device)
  deriving DecidableEq

/-- Entries by their parts, the later ones first. Every directory on the way to
an entry exists as well. The root is a part of its own, written as a slash. -/
structure Files where
  entries : List (List Text × Files.Entry)

namespace Files

inductive Failure where
  | missing
  | notDirectory
  | isDirectory
  | nameTooLong
  /-- No name holds a zero byte. -/
  | invalidName
  | noSpace
  /-- What is read never ends. -/
  | endless
  deriving DecidableEq

namespace Failure

def message (path : Text) : Failure → Text
  | missing => utf8 "open " ++ path ++ utf8 ": no such file or directory"
  | notDirectory => utf8 "open " ++ path ++ utf8 ": not a directory"
  | isDirectory => utf8 "read " ++ path ++ utf8 ": is a directory"
  | nameTooLong => utf8 "open " ++ path ++ utf8 ": file name too long"
  | invalidName => utf8 "open " ++ path ++ utf8 ": invalid argument"
  | noSpace => utf8 "write " ++ path ++ utf8 ": no space left on device"
  | endless => utf8 "read " ++ path ++ utf8 ": cannot allocate memory"

end Failure

def system : Files :=
  ⟨[([[Path.slash], utf8 "dev", utf8 "null"], .device .null),
    ([[Path.slash], utf8 "dev", utf8 "full"], .device .full),
    ([[Path.slash], utf8 "tmp"], .directory)]⟩

/-- The entry at a path given by its parts. The directories above the working
directory exist. -/
def at? (files : Files) (parts : List Text) : Option Entry :=
  match files.entries.find? (·.1 == parts) with
  | some (_, entry) => some entry
  | none =>
    if parts.all (· == utf8 "..") ||
        files.entries.any (fun (name, _) => parts.isPrefixOf name) then
      some .directory
    else none

/-- The directory that two dots name. There is none above the root; above the
working directory the dots are kept. -/
def parent (here : List Text) : List Text :=
  match here.getLast? with
  | some last =>
    if last = utf8 ".." then here ++ [last]
    else if last = [Path.slash] then here
    else here.dropLast
  | none => [utf8 ".."]

def maxPart : Nat := 255

def maxPath : Nat := 4095

/-- Follows a path step by step from the directory `here`; the result is the
parts of what it names. The last part may be missing. -/
def walk (files : Files) : (here : List Text) → List Text → Except Failure (List Text)
  | here, [] => .ok here
  | here, step :: rest =>
    match files.at? here with
    | none => .error .missing
    | some .directory =>
      if maxPart < step.length then .error .nameTooLong
      else if step = utf8 "." then walk files here rest
      else walk files (if step = utf8 ".." then parent here else here ++ [step]) rest
    | some _ => .error .notDirectory

/-- Where a path leads. A slash at its end asks for a directory. -/
def resolve (files : Files) (path : Text) : Except Failure (List Text) :=
  if path.contains 0 then .error .invalidName
  else if path.isEmpty then .error .missing
  else if maxPath < path.length then .error .nameTooLong
  else
    let root : List Text := if Path.isAbsolute path then [[Path.slash]] else []
    match files.walk root (Path.steps path) with
    | .error failure => .error failure
    | .ok parts =>
      if path.getLast? = some Path.slash then
        match files.at? parts with
        | some .directory | none => .ok parts
        | some _ => .error .notDirectory
      else .ok parts

def find (files : Files) (path : Text) : Except Failure Entry :=
  match files.resolve path with
  | .error failure => .error failure
  | .ok parts =>
    match files.at? parts with
    | some entry => .ok entry
    | none => .error .missing

def read (files : Files) (path : Text) : Except Failure Text :=
  match files.find path with
  | .ok (.file content) => .ok content
  | .ok (.device .null) => .ok []
  | .ok (.device .full) => .error .endless
  | .ok .directory => .error .isDirectory
  | .error failure => .error failure

def put (files : Files) (parts : List Text) (entry : Entry) : Files :=
  ⟨(parts, entry) :: files.entries.filter (·.1 != parts)⟩

/-- Replaces a file or makes a new one in a directory that exists. -/
def write (files : Files) (path content : Text) : Except Failure Files :=
  match files.resolve path with
  | .error failure => .error failure
  | .ok parts =>
    match files.at? parts with
    | some .directory => .error .isDirectory
    | some (.file _) => .ok (files.put parts (.file content))
    | some (.device .null) => .ok files
    | some (.device .full) => if content.isEmpty then .ok files else .error .noSpace
    | none =>
      if path.getLast? = some Path.slash then .error .isDirectory
      else .ok (files.put parts (.file content))

def list (files : Files) (path : Text) : Except Failure (List Text) :=
  match files.resolve path with
  | .error failure => .error failure
  | .ok parts =>
    match files.at? parts with
    | none => .error .missing
    | some .directory =>
      let names := files.entries.filterMap fun (name, _) =>
        if parts.isPrefixOf name then (name.drop parts.length).head? else none
      .ok (names.eraseDups.mergeSort fun a b => !Text.before b a)
    | some _ => .error .notDirectory

def changes (earlier later : Files) : List (List Text × Text) :=
  later.entries.filterMap fun (parts, entry) =>
    match entry with
    | .file content => if earlier.at? parts = some entry then none else some (parts, content)
    | _ => none

def isInside (parts : List Text) : Bool :=
  parts.head?.any fun part => part != utf8 ".." && part != [Path.slash]

def changesInside (earlier later : Files) : List (List Text × Text) :=
  (earlier.changes later).filter fun (parts, _) => isInside parts

end Files

end Parlance
