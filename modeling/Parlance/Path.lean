import Parlance.Text

namespace Parlance.Path

/-! Names of files: parts between slashes. -/

def slash : UInt8 := Text.byte '/'

def isAbsolute (path : Text) : Bool :=
  Text.startsWith (· == slash) path

/-- The steps from directory to directory. A dot is a step that stays. -/
def steps (path : Text) : List Text :=
  (Text.splitOn slash path).filter fun part => !part.isEmpty

def parts (path : Text) : List Text :=
  (steps path).filter fun part => part != utf8 "."

/-- Takes out each part that is followed by two dots. The result so far is in
reverse; above the root there is nothing. -/
def reduce (rooted : Bool) : (reversed : List Text) → List Text → List Text
  | reversed, [] => reversed.reverse
  | reversed, part :: rest =>
    if part = utf8 ".." then
      match reversed with
      | last :: before =>
        if last = utf8 ".." then reduce rooted (part :: reversed) rest else reduce rooted before rest
      | [] => if rooted then reduce rooted [] rest else reduce rooted [part] rest
    else reduce rooted (part :: reversed) rest

/-- The shortest path that names the same file. -/
def clean (path : Text) : Text :=
  let rooted := isAbsolute path
  let joined := Text.join [slash] (reduce rooted [] (parts path))
  if rooted then slash :: joined
  else if joined.isEmpty then utf8 "."
  else joined

def join (elements : List Text) : Text :=
  let elements := elements.filter fun element => !element.isEmpty
  if elements.isEmpty then [] else clean (Text.join [slash] elements)

end Parlance.Path
