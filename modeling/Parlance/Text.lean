namespace Parlance

/-!
Programs, names, values and printed lines are byte strings. They are usually
UTF-8, but nothing here depends on it: offsets count bytes, the order is
bytewise, and a malformed byte is carried along unchanged.
-/

/-- A byte string. -/
abbrev Text := List UInt8

def utf8 (string : String) : Text :=
  string.toUTF8.data.toList

namespace Text

abbrev byte (character : Char) : UInt8 :=
  character.toUInt8

def newline : UInt8 := 10

def quote : UInt8 := byte '\''

/-- The separators between tokens: space, tab, carriage return and newline. -/
def isBlank (b : UInt8) : Bool :=
  b == byte ' ' || b == byte '\t' || b == byte '\r' || b == newline

/-- Letters that may start a name. The underscore counts as one. -/
def isLower (b : UInt8) : Bool :=
  (byte 'a' ≤ b && b ≤ byte 'z') || b == byte '_'

def isUpper (b : UInt8) : Bool :=
  byte 'A' ≤ b && b ≤ byte 'Z'

def isDigit (b : UInt8) : Bool :=
  byte '0' ≤ b && b ≤ byte '9'

/-- Bytes that belong to words: names, numbers and keywords. -/
def isWord (b : UInt8) : Bool :=
  isLower b || isUpper b || isDigit b

def startsWith (accepts : UInt8 → Bool) : Text → Bool
  | [] => false
  | b :: _ => accepts b

def compare : Text → Text → Ordering
  | [], [] => .eq
  | [], _ :: _ => .lt
  | _ :: _, [] => .gt
  | a :: as, b :: bs => (Ord.compare a b).then (compare as bs)

/-- `a` comes strictly before `b` in the bytewise order. -/
def before (a b : Text) : Bool :=
  compare a b == .lt

/-- The parts one after another with `separator` between neighbours. -/
def join (separator : Text) (parts : List Text) : Text :=
  (parts.intersperse separator).flatten

/-- The pieces between the occurrences of a byte; there is always at least one. -/
def splitOn (separator : UInt8) : Text → List Text
  | [] => [[]]
  | b :: rest =>
    match splitOn separator rest with
    | [] => [[]]
    | piece :: pieces =>
      if b = separator then [] :: piece :: pieces else (b :: piece) :: pieces

/-- The text inside single quotes, as messages show names. -/
def quoted (text : Text) : Text :=
  quote :: text ++ [quote]

def hasPrefix (front text : Text) : Bool :=
  front.isPrefixOf text

def repeated (count : Nat) (text : Text) : Text :=
  (List.replicate count text).flatten

end Text

end Parlance
