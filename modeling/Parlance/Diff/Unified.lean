import Parlance.Diff.Edit
import Parlance.Text.Decimal

namespace Parlance.Diff

/-!
The unified form of a difference: hunks of removed and added lines with up to
three lines of context around them. Changes that are at most six lines apart
share a hunk.
-/

inductive Mark where
  | kept
  | removed
  | added
  deriving DecidableEq

def Mark.byte : Mark → UInt8
  | kept => Text.byte ' '
  | removed => Text.byte '-'
  | added => Text.byte '+'

abbrev Line := Text

/-- The lines of a text, each with its newline. Only the last may lack it. -/
def lines : Text → List Line
  | [] => []
  | b :: rest =>
    match lines rest with
    | [] => [[b]]
    | line :: following =>
      if b = Text.newline then [b] :: line :: following else (b :: line) :: following

structure Hunk where
  oldLine : Nat
  newLine : Nat
  body : List (Mark × Line)

namespace Hunk

def extend (hunk : Hunk) (mark : Mark) (lines : List Line) : Hunk :=
  { hunk with body := hunk.body ++ lines.map fun line => (mark, line) }

/-- One side of the heading. The count is left out when it is at most one; a side
without a line before the hunk and in it is written with two zeros. -/
def range (line count : Nat) : Text :=
  if count > 1 then Text.ofNat line ++ utf8 "," ++ Text.ofNat count
  else if line = 1 ∧ count = 0 then utf8 "0,0"
  else Text.ofNat line

def heading (hunk : Hunk) : Text :=
  let count (other : Mark) := (hunk.body.filter fun (mark, _) => mark ≠ other).length
  utf8 "@@ -" ++ range hunk.oldLine (count .added) ++
    utf8 " +" ++ range hunk.newLine (count .removed) ++ utf8 " @@\n"

def lineText (mark : Mark) (line : Line) : Text :=
  mark.byte :: line ++
    (if line.getLast? = some Text.newline then [] else utf8 "\n\\ No newline at end of file\n")

def text (hunk : Hunk) : Text :=
  hunk.heading ++ hunk.body.flatMap fun (mark, line) => lineText mark line

end Hunk

def context : Nat := 3

/-- The hunks so far. `last` counts the old lines that are dealt with, `reached`
the new lines up to the hunk in work. -/
structure Progress where
  finished : List Hunk
  current : Option Hunk
  last : Nat
  reached : Nat

namespace Progress

def between (all : List Line) (start stop : Nat) : List Line :=
  (all.drop start).take (stop - start)

/-- The hunk in work with the lines of context behind it. -/
def closed (all : List Line) (progress : Progress) : List Hunk :=
  match progress.current with
  | none => progress.finished
  | some hunk =>
    progress.finished ++ [hunk.extend .kept (between all progress.last (progress.last + context))]

/-- A new hunk in front of the line `start`, with the lines of context before it. -/
def opened (all : List Line) (progress : Progress) (start : Nat) : Hunk × Nat :=
  let reached := progress.reached + (start - progress.last)
  let before := between all (start - context) start
  let hunk : Hunk := ⟨start + 1 - before.length, reached + 1 - before.length, []⟩
  (hunk.extend .kept before, reached)

def take (all : List Line) (progress : Progress) (start stop : Nat) (replacement : List Line) : Progress :=
  let (finished, hunk, reached) :=
    match progress.current with
    | some hunk =>
      if start ≤ progress.last + 2 * context then
        (progress.finished, hunk.extend .kept (between all progress.last start), progress.reached)
      else
        let (hunk, reached) := progress.opened all start
        (progress.closed all, hunk, reached)
    | none =>
      let (hunk, reached) := progress.opened all start
      (progress.finished, hunk, reached)
  ⟨finished, some ((hunk.extend .removed (between all start stop)).extend .added replacement),
    start + (stop - start), reached + replacement.length⟩

end Progress

def lineOf (text : Array UInt8) (place : Nat) : Nat :=
  (slice text 0 place).count Text.newline

def hunks (text : Array UInt8) (edits : List Edit) : List Hunk :=
  let all := lines text.toList
  let progress := edits.foldl (fun (progress : Progress) edit =>
    let unended := edit.stop = text.size ∧ !startsLine text text.size
    let stop := lineOf text edit.stop + (if unended then 1 else 0)
    progress.take all (lineOf text edit.start) stop (lines edit.replacement)) ⟨[], none, 0, 0⟩
  progress.closed all

/-- The difference of two texts under their names; nothing when they are equal. -/
def unified (oldName newName old new : Text) : Text :=
  let text := old.toArray
  match hunks text (linewise text (edits old new)) with
  | [] => []
  | found =>
    utf8 "--- " ++ oldName ++ utf8 "\n+++ " ++ newName ++ utf8 "\n" ++ found.flatMap Hunk.text

end Parlance.Diff
