import Parlance.Yaml.Stream

namespace Parlance.Yaml

/-! A place in a YAML stream: the characters ahead, and where they are. -/

structure Cursor where
  /-- What is decoded and not yet taken. -/
  ahead : List Char := []
  /-- What is not decoded yet. -/
  stream : Stream
  /-- Whether a byte order mark was next when a block was decoded last. -/
  marked : Bool := false
  index : Nat := 0
  line : Nat := 0
  column : Nat := 0
  /-- The line breaks since the last character other than a blank. -/
  breaks : Nat := 0
  /-- More than the characters of the stream. Every loop takes at least one a
  turn, so this is enough fuel. -/
  fuel : Nat

/-- Line breaks: carriage return, line feed, next line and the two separators. -/
def isBreak (character : Char) : Bool :=
  character == '\n' || character == '\r' || character.toNat == 0x85 ||
    character.toNat == 0x2028 || character.toNat == 0x2029

def isBlank (character : Char) : Bool :=
  character == ' ' || character == '\t'

def isNameChar (character : Char) : Bool :=
  ('0' ≤ character && character ≤ '9') || ('a' ≤ character && character ≤ 'z') ||
    ('A' ≤ character && character ≤ 'Z') || character == '_' || character == '-'

/-- Blanks, breaks and the end of the stream separate tokens. -/
def isGap : List Char → Bool
  | [] => true
  | character :: _ => isBlank character || isBreak character

def reaches {α : Type} : Nat → List α → Bool
  | 0, _ => true
  | _ + 1, [] => false
  | count + 1, _ :: rest => reaches count rest

namespace Cursor

def ofText (text : Text) : Cursor :=
  let stream := Stream.ofText text
  { stream, fuel := stream.size + 2 }

def startsWith (cursor : Cursor) (accepts : Char → Bool) : Bool :=
  match cursor.ahead with
  | [] => false
  | character :: _ => accepts character

def atGap (cursor : Cursor) : Bool :=
  isGap cursor.ahead

def atBreak (cursor : Cursor) : Bool :=
  cursor.startsWith isBreak

def atBlank (cursor : Cursor) : Bool :=
  cursor.startsWith isBlank

/-- Nothing is ahead, where everything is decoded. -/
def atEnd (cursor : Cursor) : Bool :=
  cursor.ahead.isEmpty

/-- Takes blocks until so many characters are ahead. -/
def gather (count : Nat) : (ahead : List Char) → (blocks : List (List Char)) →
    List Char × List (List Char)
  | ahead, [] => (ahead, [])
  | ahead, block :: blocks =>
    if reaches count ahead then (ahead, block :: blocks) else gather count (ahead ++ block) blocks

/-- Decodes as much as it takes for so many characters to be ahead, unless the
stream ends before. A fault on the way is met even if it lies further on. -/
def need? (cursor : Cursor) (count : Nat) : Option Cursor :=
  if reaches count cursor.ahead then some cursor
  else
    let (ahead, blocks) := gather count cursor.ahead cursor.stream.blocks
    if cursor.stream.faulty && !reaches count ahead then none
    else
      some { cursor with
        ahead
        stream := { cursor.stream with blocks }
        marked := ahead.head? == some byteOrderMark }

def skip (cursor : Cursor) : Cursor :=
  { cursor with
    ahead := cursor.ahead.drop 1
    index := cursor.index + 1
    column := cursor.column + 1
    breaks := if cursor.atBlank then cursor.breaks else 0 }

/-- Past a line break, and the character it counts as: the two separators are
kept, all others read as a line feed. Elsewhere nothing happens. -/
def lineBreak (cursor : Cursor) : List Char × Cursor :=
  let after (count : Nat) : Cursor :=
    { cursor with
      ahead := cursor.ahead.drop count
      index := cursor.index + count
      line := cursor.line + 1
      column := 0
      breaks := cursor.breaks + 1 }
  match cursor.ahead with
  | '\r' :: '\n' :: _ => (['\n'], after 2)
  | character :: _ =>
    if character.toNat = 0x2028 || character.toNat = 0x2029 then ([character], after 1)
    else if isBreak character then (['\n'], after 1)
    else ([], cursor)
  | [] => ([], cursor)

/-- Whether a line starts with three dashes or three dots by themselves. -/
def atDocumentMark (cursor : Cursor) : Bool :=
  cursor.column == 0 &&
    match cursor.ahead with
    | a :: b :: c :: rest => (a == '-' || a == '.') && a == b && b == c && isGap rest
    | _ => false

end Cursor

abbrev Scan := StateT Cursor Option

namespace Scan

def need (count : Nat) : Scan Unit := fun cursor =>
  (cursor.need? count).map ((), ·)

def skip : Scan Unit :=
  modify Cursor.skip

def skipMany : (count : Nat) → Scan Unit
  | 0 => pure ()
  | count + 1 => do
    skip
    skipMany count

def lineBreak : Scan (List Char) := do
  need 2
  modifyGet Cursor.lineBreak

def takeWhileFrom (accepts : Char → Bool) : (fuel : Nat) → Scan (List Char)
  | 0 => failure
  | fuel + 1 => do
    need 1
    match (← get).ahead with
    | character :: _ =>
      if accepts character then
        skip
        return character :: (← takeWhileFrom accepts fuel)
      else return []
    | [] => return []

def takeWhile (accepts : Char → Bool) : Scan (List Char) := do
  takeWhileFrom accepts (← get).fuel

def skipBlanks : Scan Unit :=
  discard (takeWhile isBlank)

def skipLine : Scan Unit :=
  discard (takeWhile fun character => !isBreak character)

end Scan

end Parlance.Yaml
