import Parlance.Diff.Alignment
import Parlance.Text.Unicode

namespace Parlance.Diff

/-! Changes to a text: pieces of it with what takes their place. -/

/-- The bytes from `start` up to `stop` give way to `replacement`. -/
structure Edit where
  start : Nat
  stop : Nat
  replacement : Text
  deriving DecidableEq

def slice {α : Type} (items : Array α) (start stop : Nat) : List α :=
  (items.extract start stop).toList

def encoded (text : Array Char) (start stop : Nat) : Text :=
  Text.ofChars (slice text start stop)

/-- What lies between the runs that are kept. The places `x` and `y` count
characters; `offset` counts the bytes before `x`, where a malformed byte takes as
many as the character it is read as. -/
def gaps (old new : Array Char) : (x y offset : Nat) → List Run → List Edit
  | x, y, offset, [] =>
    if x < old.size ∨ y < new.size then
      [⟨offset, offset + (encoded old x old.size).length, encoded new y new.size⟩]
    else []
  | x, y, offset, run :: runs =>
    let stop := offset + (encoded old x run.x.toNat).length
    let after := (run.x + run.length).toNat
    let rest := gaps old new after (run.y + run.length).toNat
      (stop + (encoded old run.x.toNat after).length) runs
    if x < run.x ∨ y < run.y then ⟨offset, stop, encoded new y run.y.toNat⟩ :: rest else rest

def edits (old new : Text) : List Edit :=
  if old = new then []
  else
    let before := (Text.chars old).toArray
    let after := (Text.chars new).toArray
    gaps before after 0 0 0 (aligned before after)

def startsLine (text : Array UInt8) (place : Nat) : Bool :=
  place = 0 || text[place - 1]? = some Text.newline

def wholeLines (replacement : Text) : Bool :=
  replacement.isEmpty || replacement.getLast? = some Text.newline

namespace Edit

def isLinewise (text : Array UInt8) (edit : Edit) : Bool :=
  edit.start < text.size && startsLine text edit.start && startsLine text edit.stop &&
    wholeLines edit.replacement

/-- The edit from the start of its first line to the end of its last. -/
def widened (text : Array UInt8) (edit : Edit) : Edit :=
  let column := ((slice text 0 edit.start).reverse.takeWhile (· != Text.newline)).length
  let start := edit.start - column
  let replacement := slice text start edit.start ++ edit.replacement
  let stop :=
    if startsLine text edit.stop && wholeLines replacement then edit.stop
    else
      let rest := (slice text edit.stop text.size).takeWhile (· != Text.newline)
      min text.size (edit.stop + rest.length + 1)
  ⟨start, stop, replacement ++ slice text edit.stop stop⟩

/-- Edits that touch the same line become one, and each is widened to whole lines. -/
def merged (text : Array UInt8) : (current : Edit) → List Edit → List Edit
  | current, [] => [current.widened text]
  | current, edit :: rest =>
    let between := slice text current.stop edit.start
    if between.contains Text.newline then current.widened text :: merged text edit rest
    else merged text ⟨current.start, edit.stop, current.replacement ++ between ++ edit.replacement⟩ rest

end Edit

def linewise (text : Array UInt8) (edits : List Edit) : List Edit :=
  if edits.all (·.isLinewise text) then edits
  else
    match edits with
    | [] => []
    | first :: rest => Edit.merged text first rest

end Parlance.Diff
