import Parlance.Text.Unicode
import Parlance.Text.Decimal

namespace Parlance

/-!
Places in a source text. Lines and columns start at one. A column counts
characters, and a byte that belongs to no well-formed character counts as one.
-/

structure Position where
  line : Int
  column : Int
  deriving DecidableEq, Repr

namespace Position

def origin : Position := ⟨1, 1⟩

/-- `pending` bytes at the front belong to the last character counted. -/
def advanceFrom : Position → Nat → Text → Position
  | position, _, [] => position
  | position, pending + 1, _ :: rest => advanceFrom position pending rest
  | position, 0, b :: rest =>
    if b = Text.newline then
      advanceFrom ⟨position.line + 1, 1⟩ 0 rest
    else
      advanceFrom ⟨position.line, position.column + 1⟩ (Text.charWidth (b :: rest) - 1) rest

/-- The position behind `passed` when it starts at `position`. -/
def advance (position : Position) (passed : Text) : Position :=
  advanceFrom position 0 passed

end Position

/-- A stretch of a file. `stop` is the position behind its last character. -/
structure Span where
  file : Text
  start : Position
  stop : Position
  deriving DecidableEq, Repr

namespace Span

def blank : Span := ⟨[], ⟨0, 0⟩, ⟨0, 0⟩⟩

def cover (first last : Span) : Span :=
  ⟨first.file, first.start, last.stop⟩

def atEnd (span : Span) : Span :=
  ⟨span.file, span.stop, span.stop⟩

def startText (span : Span) : Text :=
  Text.ofInt span.start.line ++ utf8 ":" ++ Text.ofInt span.start.column

def text (span : Span) : Text :=
  span.file ++ utf8 ":" ++ span.startText

end Span

end Parlance
