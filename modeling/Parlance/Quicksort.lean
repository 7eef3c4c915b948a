namespace Parlance.Quicksort

/-!
Quicksort in place, with insertion sort for short ranges and heapsort for ranges
that keep splitting badly. Items that the order does not tell apart may change
places, so which of them comes first depends on every step below. A range goes
from `first` up to `last`, which is not part of it. All that is ever done to the
items is to swap two of them.
-/

variable {α : Type} (less : α → α → Bool)

def precedes (items : Array α) (i j : Nat) : Bool :=
  match items[i]?, items[j]? with
  | some a, some b => less a b
  | _, _ => false

def sink (first : Nat) : (place : Nat) → Array α → Array α
  | 0, items => items
  | place + 1, items =>
    if first ≤ place && precedes less items (place + 1) place then
      sink first place (items.swapIfInBounds (place + 1) place)
    else items

def insertionSort (first last : Nat) (items : Array α) : Array α :=
  (List.range' (first + 1) (last - first - 1)).foldl (fun items place => sink less first place items)
    items

def sift (first size : Nat) : (fuel : Nat) → (root : Nat) → Array α → Array α
  | 0, _, items => items
  | fuel + 1, root, items =>
    let left := 2 * root + 1
    let child :=
      if left + 1 < size && precedes less items (first + left) (first + left + 1) then left + 1
      else left
    if left < size && precedes less items (first + root) (first + child) then
      sift first size fuel child (items.swapIfInBounds (first + root) (first + child))
    else items

def heapsort (first last : Nat) (items : Array α) : Array α :=
  let size := last - first
  let heap := (List.range ((size - 1) / 2 + 1)).reverse.foldl
    (fun items root => sift less first size size root items) items
  (List.range size).reverse.foldl
    (fun items top => sift less first top size 0 (items.swapIfInBounds first (first + top))) heap

def scrambled (number : UInt64) : UInt64 :=
  let number := number ^^^ (number <<< 13)
  let number := number ^^^ (number >>> 7)
  number ^^^ (number <<< 17)

/-- Swaps three items in the middle of the range with others, against patterns
that make it split badly. -/
def scatter (first last : Nat) (items : Array α) : Array α :=
  let size := last - first
  let bound := 2 * Nat.pow 2 size.log2
  let middle := first + size / 4 * 2 - 1
  let swap (items : Array α) (place : Nat) (number : UInt64) : Array α :=
    let other := number.toNat % bound
    items.swapIfInBounds place (first + (if size ≤ other then other - size else other))
  let a := scrambled size.toUInt64
  let b := scrambled a
  swap (swap (swap items (middle - 1) a) middle b) (middle + 1) (scrambled b)

def median (items : Array α) (a b c exchanges : Nat) : Nat × Nat :=
  let (a, b, exchanges) :=
    if precedes less items b a then (b, a, exchanges + 1) else (a, b, exchanges)
  let (b, exchanges) := if precedes less items c b then (c, exchanges + 1) else (b, exchanges)
  if precedes less items b a then (a, exchanges + 1) else (b, exchanges)

/-- The place of the pivot, and the number of exchanges on the way to it: none
if the range seems to be in order, twelve if it seems to be in reverse. -/
def pivot (first last : Nat) (items : Array α) : Nat × Nat :=
  let size := last - first
  let i := first + size / 4
  let j := first + size / 4 * 2
  let k := first + size / 4 * 3
  if size < 50 then median less items i j k 0
  else
    let (i, exchanges) := median less items (i - 1) i (i + 1) 0
    let (j, exchanges) := median less items (j - 1) j (j + 1) exchanges
    let (k, exchanges) := median less items (k - 1) k (k + 1) exchanges
    median less items i j k exchanges

def reverse (first last : Nat) (items : Array α) : Array α :=
  (List.range ((last - first) / 2)).foldl
    (fun items step => items.swapIfInBounds (first + step) (last - 1 - step)) items

def climb (accepts : Nat → Bool) (high : Nat) : (fuel low : Nat) → Nat
  | 0, low => low
  | fuel + 1, low => if low ≤ high && accepts low then climb accepts high fuel (low + 1) else low

def descend (accepts : Nat → Bool) (low : Nat) : (fuel high : Nat) → Nat
  | 0, high => high
  | fuel + 1, high =>
    if low ≤ high && accepts high then descend accepts low fuel (high - 1) else high

/-- Swaps items until those that belong low come before those that belong high. -/
def exchange (isLow isHigh : Array α → Nat → Bool) :
    (fuel : Nat) → (low high : Nat) → (swapped : Bool) → Array α → Array α × Nat × Nat × Bool
  | 0, low, high, swapped, items => (items, low, high, swapped)
  | fuel + 1, low, high, swapped, items =>
    let low := climb (isLow items) high items.size low
    let high := descend (isHigh items) low items.size high
    if high < low then (items, low, high, swapped)
    else exchange isLow isHigh fuel (low + 1) (high - 1) true (items.swapIfInBounds low high)

/-- Puts smaller items before the pivot and the others behind it. The result has
the new place of the pivot, and whether the range was already like this. -/
def partition (first last pivot : Nat) (items : Array α) : Array α × Nat × Bool :=
  let (items, _, place, swapped) :=
    exchange (fun items place => precedes less items place first)
      (fun items place => !precedes less items place first)
      items.size (first + 1) (last - 1) false (items.swapIfInBounds first pivot)
  (items.swapIfInBounds place first, place, !swapped)

/-- Puts items equal to the pivot, which is the least one, before the others. -/
def partitionEqual (first last pivot : Nat) (items : Array α) : Array α × Nat :=
  let (items, place, _, _) :=
    exchange (fun items place => !precedes less items first place)
      (fun items place => precedes less items first place)
      items.size (first + 1) (last - 1) false (items.swapIfInBounds first pivot)
  (items, place)

def rise (last : Nat) : (fuel : Nat) → (place : Nat) → Array α → Array α
  | 0, _, items => items
  | fuel + 1, place, items =>
    if place < last && precedes less items place (place - 1) then
      rise last fuel (place + 1) (items.swapIfInBounds place (place - 1))
    else items

/-- Mends up to so many neighbours that are out of order. The result tells
whether all are in order then. -/
def settle (first last : Nat) : (steps : Nat) → (place : Nat) → Array α → Array α × Bool
  | 0, _, items => (items, false)
  | steps + 1, place, items =>
    let place :=
      climb (fun place => !precedes less items place (place - 1)) (last - 1) items.size place
    if place = last then (items, true)
    else if last - first < 50 then (items, false)
    else
      let items := items.swapIfInBounds place (place - 1)
      let items := if 2 ≤ place - first then sink less 0 (place - 1) items else items
      let items := if 2 ≤ last - place then rise less last items.size (place + 1) items else items
      settle first last steps place items

/-- Sorts a range. It may split badly `limit` more times. -/
def sortRange : (fuel : Nat) → (first last limit : Nat) → (balanced ordered : Bool) →
    Array α → Array α
  | 0, _, _, _, _, _, items => items
  | fuel + 1, first, last, limit, balanced, ordered, items =>
    let size := last - first
    if size ≤ 12 then insertionSort less first last items
    else if limit = 0 then heapsort less first last items
    else
      let items := if balanced then items else scatter first last items
      let limit := if balanced then limit else limit - 1
      let (place, exchanges) := pivot less first last items
      let (items, place) :=
        if exchanges = 12 then (reverse first last items, last - 1 - (place - first))
        else (items, place)
      let (items, done) :=
        if balanced && ordered && (exchanges = 0 || exchanges = 12) then
          settle less first last 5 (first + 1) items
        else (items, false)
      if done then items
      else if 0 < first && !precedes less items (first - 1) place then
        let (items, first) := partitionEqual less first last place items
        sortRange fuel first last limit balanced ordered items
      else
        let (items, middle, ordered) := partition less first last place items
        if middle - first < last - middle then
          let items := sortRange fuel first middle limit true true items
          sortRange fuel (middle + 1) last limit (size / 8 ≤ middle - first) ordered items
        else
          let items := sortRange fuel (middle + 1) last limit true true items
          sortRange fuel first middle limit (size / 8 ≤ last - middle) ordered items

def sort (items : List α) : List α :=
  let size := items.length
  (sortRange less (size + 1) 0 size (size.log2 + 1) true true items.toArray).toList

end Parlance.Quicksort
