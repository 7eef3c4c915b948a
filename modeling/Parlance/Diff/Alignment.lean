import Parlance.Quicksort

namespace Parlance.Diff

/-!
How two sequences of characters line up. Places are pairs: `x` characters of the
old text and `y` of the new are behind them. A step to the right deletes a
character, a step down inserts one, and a diagonal step keeps a character that
both texts have. The diagonal of a place is `x - y`.

The search runs from both ends at once. After each round the fronts hold, for
every diagonal, how far so many deletions and insertions can lead.
-/

structure Run where
  x : Int
  y : Int
  length : Int
  deriving DecidableEq

/-- The two texts, and the corner up to which they are compared. -/
structure Grid where
  old : Array Char
  new : Array Char
  width : Nat
  height : Nat

/-- How many characters from these places on are equal, at most `bound`. -/
def Grid.equalAfter (grid : Grid) (x y : Nat) : (bound : Nat) → Nat
  | 0 => 0
  | bound + 1 =>
    if grid.old[x]? = grid.new[y]? then grid.equalAfter (x + 1) (y + 1) bound + 1 else 0

def Grid.equalBefore (grid : Grid) : (x y : Nat) → Nat
  | x + 1, y + 1 => if grid.old[x]? = grid.new[y]? then grid.equalBefore x y + 1 else 0
  | _, _ => 0

def Grid.slant (grid : Grid) : Int :=
  (grid.old.size : Int) - grid.new.size

def Grid.forth (grid : Grid) (diagonal x : Int) : Int :=
  let y := x - diagonal
  if x < grid.width ∧ y < grid.height then
    x + grid.equalAfter x.toNat y.toNat (min (grid.width - x).toNat (grid.height - y).toNat)
  else x

def Grid.back (grid : Grid) (diagonal x : Int) : Int :=
  let y := x - diagonal
  if 0 < x ∧ 0 < y then x - grid.equalBefore x.toNat y.toNat else x

/-- The places reached with a number of changes, one for every second diagonal
from `-changes` to `changes`. Diagonals of the front that runs backwards count
from the far corner. -/
abbrev Front := Array Int

abbrev Fronts := Array Front

def Fronts.at? (fronts : Fronts) (changes diagonal : Int) : Option Int :=
  if changes < 0 ∨ diagonal < -changes ∨ changes < diagonal then none
  else
    match fronts[changes.toNat]? with
    | some front => front[((diagonal + changes) / 2).toNat]?
    | none => none

def Fronts.at (fronts : Fronts) (changes diagonal : Int) : Int :=
  (fronts.at? changes diagonal).getD 0

/-- One of two places that may both be missing at the ends of a front. -/
def choose (best : Int → Int → Int) : Option Int → Option Int → Int
  | some a, some b => best a b
  | some a, none => a
  | none, some b => b
  | none, none => 0

/-- One more change, forward: of a deletion and an insertion the one that gets further. -/
def Grid.advance (grid : Grid) (changes : Nat) (front : Front) : Front :=
  ((List.range (changes + 2)).map fun (index : Nat) =>
    let diagonal : Int := 2 * (index : Int) - (changes + 1)
    let deletion := if index = 0 then none else front[index - 1]?.map fun x => grid.forth diagonal (x + 1)
    choose max deletion (front[index]?.map (grid.forth diagonal))).toArray

def Grid.retreat (grid : Grid) (changes : Nat) (front : Front) : Front :=
  ((List.range (changes + 2)).map fun (index : Nat) =>
    let diagonal : Int := 2 * (index : Int) - (changes + 1) + grid.slant
    let insertion := if index = 0 then none else front[index - 1]?.map (grid.back diagonal)
    choose min insertion (front[index]?.map fun x => grid.back diagonal (x - 1))).toArray

def keepFirst (x y : Int) : List Run → List Run
  | run :: runs =>
    if run.x = x + 1 ∧ run.y = y + 1 then ⟨x, y, run.length + 1⟩ :: runs
    else ⟨x, y, 1⟩ :: run :: runs
  | [] => [⟨x, y, 1⟩]

def keepLast (x y : Int) : List Run → List Run
  | run :: runs =>
    if run.x + run.length = x ∧ run.y + run.length = y then ⟨run.x, run.y, run.length + 1⟩ :: runs
    else ⟨x, y, 1⟩ :: run :: runs
  | [] => [⟨x, y, 1⟩]

def Fronts.toStart (fronts : Fronts) : (fuel : Nat) → (changes diagonal x : Int) → List Run → List Run
  | 0, _, _, _, runs => runs
  | fuel + 1, changes, diagonal, x, runs =>
    if x = 0 ∧ diagonal = 0 then runs
    else if fronts.at? (changes - 1) (diagonal - 1) = some (x - 1) then
      fronts.toStart fuel (changes - 1) (diagonal - 1) (x - 1) runs
    else if fronts.at? (changes - 1) (diagonal + 1) = some x then
      fronts.toStart fuel (changes - 1) (diagonal + 1) x runs
    else fronts.toStart fuel changes diagonal (x - 1) (keepFirst (x - 1) (x - diagonal - 1) runs)

def Fronts.toEnd (fronts : Fronts) (grid : Grid) :
    (fuel : Nat) → (changes diagonal x : Int) → (reversed : List Run) → List Run
  | 0, _, _, _, reversed => reversed.reverse
  | fuel + 1, changes, diagonal, x, reversed =>
    if x = grid.width ∧ x - (diagonal + grid.slant) = grid.height then reversed.reverse
    else if fronts.at? (changes - 1) (diagonal - 1) = some x then
      fronts.toEnd grid fuel (changes - 1) (diagonal - 1) x reversed
    else if fronts.at? (changes - 1) (diagonal + 1) = some (x + 1) then
      fronts.toEnd grid fuel (changes - 1) (diagonal + 1) (x + 1) reversed
    else
      fronts.toEnd grid fuel changes diagonal (x + 1)
        (keepLast x (x - (diagonal + grid.slant)) reversed)

def Grid.steps (grid : Grid) : Nat :=
  2 * (grid.old.size + grid.new.size) + 2

def Grid.before (grid : Grid) (fronts : Fronts) (changes diagonal : Int) : List Run :=
  fronts.toStart grid.steps changes diagonal (fronts.at changes diagonal) []

def Grid.after (grid : Grid) (fronts : Fronts) (changes diagonal : Int) : List Run :=
  fronts.toEnd grid grid.steps changes diagonal (fronts.at changes diagonal) []

/-- In the order of the old text, longer runs first. -/
def sorted (runs : List Run) : List Run :=
  runs.mergeSort fun a b => if a.x = b.x then b.length ≤ a.length else a.x ≤ b.x

def diagonals (low high : Int) : List Int :=
  (List.range ((high - low) / 2 + 1).toNat).map fun (step : Nat) => low + 2 * (step : Int)

def Grid.furthest (grid : Grid) (fronts : Fronts) (changes : Nat) : Int :=
  let (_, diagonal) := (diagonals (-changes) changes).foldl (fun (best : Int × Int) diagonal =>
    let x := fronts.at changes diagonal
    let y := x - diagonal
    if best.1 < x + y ∧ x ≤ grid.width ∧ y ≤ grid.height then (x + y, diagonal) else best)
    (-1, -changes)
  diagonal

def Grid.nearest (grid : Grid) (fronts : Fronts) (changes : Nat) : Int :=
  let (_, diagonal) := (diagonals (-changes) changes).foldl (fun (best : Option Int × Int) diagonal =>
    let x := fronts.at changes diagonal
    let y := x - (diagonal + grid.slant)
    if (best.1.all fun sum => x + y < sum) && 0 ≤ x && 0 ≤ y then (some (x + y), diagonal) else best)
    (none, -changes)
  diagonal

/-- The forward search by itself: round after round until the corner is reached,
or as far as the rounds lead. -/
def Grid.onward (grid : Grid) : (rounds changes : Nat) → Front → Fronts → List Run
  | rounds, changes, front, fronts =>
    let target : Int := grid.width - grid.height
    if fronts.at? changes target = some grid.width ∧ (target + changes) % 2 = 0 then
      grid.before fronts changes target
    else
      match rounds with
      | 0 => grid.before fronts changes (grid.furthest fronts changes)
      | rounds + 1 =>
        let next := grid.advance changes front
        grid.onward rounds (changes + 1) next (fronts.push next)

def rounds : Nat := 50

/-- Where the two fronts meet or have passed each other. A place where they join
without a gap is preferred. -/
def Grid.meeting? (grid : Grid) (forward backward : Fronts) (ahead behind : Nat) : Option Int :=
  if ((ahead : Int) + behind + grid.slant) % 2 ≠ 0 then none
  else
    let high := min (behind + grid.slant) ahead
    let shared := diagonals (max (grid.slant - behind) (-ahead)) high
    let passed (diagonal : Int) : Bool :=
      backward.at behind (diagonal - grid.slant) ≤ forward.at ahead diagonal
    let smooth (diagonal : Int) : Bool :=
      let x := forward.at ahead diagonal
      let u := backward.at behind (diagonal - grid.slant)
      x = u || u = 0 || u - diagonal = 0 || x - diagonal = grid.height || x = grid.width
    match shared.find? passed with
    | none => none
    | some first => some (((diagonals first high).find? smooth).getD first)

/-- The kept runs of a way that goes through the meeting on the given diagonal.
Where the fronts overlap, the part behind the meeting is searched again. -/
def Grid.through (grid : Grid) (forward backward : Fronts) (ahead behind : Nat) (diagonal : Int) : List Run :=
  let x := forward.at ahead diagonal
  let y := x - diagonal
  let across := diagonal - grid.slant
  let u := backward.at behind across
  let v := u - diagonal
  let fewer : Int := ahead - 1
  let fewerBehind : Int := behind - 1
  if x = u then sorted (grid.before forward ahead diagonal ++ grid.after backward behind across)
  else if 0 < u ∧ forward.at? fewer (diagonal - 1) = some (u - 1) then
    sorted (grid.before forward fewer (diagonal - 1) ++ grid.after backward behind across)
  else if 0 < v ∧ forward.at? fewer (diagonal + 1) = some u then
    sorted (grid.before forward fewer (diagonal + 1) ++ grid.after backward behind across)
  else if u = 0 ∨ v = 0 then grid.after backward behind across
  else if x = grid.width ∨ y = grid.height then grid.before forward ahead diagonal
  else if x + 1 ≤ grid.width ∧ backward.at? fewerBehind (across + 1) = some (x + 1) then
    sorted (grid.after backward fewerBehind (across + 1) ++ grid.before forward ahead diagonal)
  else if y + 1 ≤ grid.height ∧ backward.at? fewerBehind (across - 1) = some x then
    sorted (grid.after backward fewerBehind (across - 1) ++ grid.before forward ahead diagonal)
  else
    let corner : Grid := ⟨grid.old, grid.new, u.toNat, v.toNat⟩
    let start : Front := #[corner.forth 0 0]
    sorted (grid.after backward behind across ++ corner.onward rounds 0 start #[start])

/-- What is left of a run beside one that is already kept: `none` when the two
cannot stand in one alignment. -/
def Run.beside? (kept run : Run) : Option Run :=
  let cutEnd (start keptStart : Int) (run : Run) : Option Run :=
    if start ≤ keptStart ∧ keptStart < start + run.length then
      let length := keptStart - start
      if length ≤ 0 then none else some ⟨run.x, run.y, length⟩
    else some run
  let cutStart (start keptStart : Int) (run : Run) : Option Run :=
    if keptStart ≤ start ∧ start < keptStart + kept.length then
      let cut := keptStart + kept.length - start
      if run.length ≤ cut then none else some ⟨run.x + cut, run.y + cut, run.length - cut⟩
    else some run
  do
    let run ← cutEnd run.x kept.x run
    let run ← cutStart run.x kept.x run
    let run ← cutEnd run.y kept.y run
    let run ← cutStart run.y kept.y run
    if run.x + run.length ≤ kept.x ∧ run.y + run.length ≤ kept.y then some run
    else if kept.x + kept.length ≤ run.x ∧ kept.y + kept.length ≤ run.y then some run
    else none

/-- A set of runs that can stand together, the longest taken first. -/
def compatible (runs : List Run) : List Run :=
  let longest := Quicksort.sort (fun (a b : Run) => b.length < a.length) runs
  sorted (longest.foldl (fun chosen run =>
    match chosen.foldl (fun (rest : Option Run) kept => rest.bind kept.beside?) (some run) with
    | some rest => chosen ++ [rest]
    | none => chosen) [])

/-- The search from both ends. When the texts differ too much, what the two
fronts have found is put together as far as it fits. -/
def Grid.search (grid : Grid) : (rounds changes : Nat) → (ahead behind : Front) → (forward backward : Fronts) → List Run
  | 0, changes, _, _, forward, backward =>
    compatible (grid.before forward changes (grid.furthest forward changes) ++
      grid.after backward changes (grid.nearest backward changes))
  | rounds + 1, changes, ahead, behind, forward, backward =>
    match grid.meeting? forward backward changes changes with
    | some diagonal => grid.through forward backward changes changes diagonal
    | none =>
      let ahead := grid.advance changes ahead
      let forward := forward.push ahead
      match grid.meeting? forward backward (changes + 1) changes with
      | some diagonal => grid.through forward backward (changes + 1) changes diagonal
      | none =>
        let behind := grid.retreat changes behind
        grid.search rounds (changes + 1) ahead behind forward (backward.push behind)

def aligned (old new : Array Char) : List Run :=
  let grid : Grid := ⟨old, new, old.size, new.size⟩
  let ahead : Front := #[grid.forth 0 0]
  let behind : Front := #[grid.back grid.slant old.size]
  grid.search rounds 0 ahead behind #[ahead] #[behind]

end Parlance.Diff
