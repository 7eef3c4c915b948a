import Parlance.Calendar
import Parlance.Text.Decimal

namespace Parlance.Timestamp

/-!
Points in time written as a date, the letter T, a time of day and the
difference to universal time.
-/

def twoDigits? : Text → Option (Nat × Text)
  | a :: b :: rest =>
    if Text.isDigit a && Text.isDigit b then some (Text.digitsValue [a, b], rest) else none
  | _ => none

/-- The hour may have a single digit. -/
def hour? : Text → Option (Nat × Text)
  | a :: rest =>
    match twoDigits? (a :: rest) with
    | some hour => some hour
    | none => if Text.isDigit a then some (Text.digitsValue [a], rest) else none
  | [] => none

def expect? (b : UInt8) : Text → Option Text
  | a :: rest => if a = b then some rest else none
  | [] => none

/-- A fraction of a second in nanoseconds, after a point or a comma. Digits
beyond the ninth are dropped. -/
def fraction : Text → Nat × Text
  | mark :: digit :: rest =>
    if (mark = Text.byte '.' || mark = Text.byte ',') && Text.isDigit digit then
      let digits := (digit :: rest).takeWhile Text.isDigit
      let nine := (digits ++ List.replicate 9 (Text.byte '0')).take 9
      (Text.digitsValue nine, (digit :: rest).dropWhile Text.isDigit)
    else (0, mark :: digit :: rest)
  | text => (0, text)

def zone? : Text → Option Int
  | [90] => some 0
  | sign :: rest => do
    let (hours, rest) ← twoDigits? rest
    let (minutes, rest) ← twoDigits? (← expect? (Text.byte ':') rest)
    if !rest.isEmpty || 24 < hours || 60 < minutes then none
    else
      let seconds : Int := ((hours * 60 + minutes) * 60 : Nat)
      if sign = Text.byte '+' then some seconds
      else if sign = Text.byte '-' then some (-seconds)
      else none
  | [] => none

/-- Nanoseconds since the beginning of the year zero. -/
def read? (text : Text) : Option Int := do
  let year := text.take 4
  if year.length ≠ 4 || !year.all Text.isDigit then none
  else
    let (month, rest) ← twoDigits? (← expect? (Text.byte '-') (text.drop 4))
    let (day, rest) ← twoDigits? (← expect? (Text.byte '-') rest)
    let (hour, rest) ← hour? (← expect? (Text.byte 'T') rest)
    let (minute, rest) ← twoDigits? (← expect? (Text.byte ':') rest)
    let (second, rest) ← twoDigits? (← expect? (Text.byte ':') rest)
    let (nanoseconds, rest) := fraction rest
    let zone ← zone? rest
    let year := Text.digitsValue year
    if !Calendar.isDate year month day || 24 ≤ hour || 60 ≤ minute || 60 ≤ second then none
    else
      let days := Calendar.dayNumber year month day
      let seconds : Int := (((days * 24 + hour) * 60 + minute) * 60 + second : Nat) - zone
      some (seconds * 1000000000 + nanoseconds)

def padded (width value : Nat) : Text :=
  let digits := Text.ofNat value
  List.replicate (width - digits.length) (Text.byte '0') ++ digits

def fractionText (nanoseconds : Nat) : Text :=
  let digits := ((padded 9 nanoseconds).reverse.dropWhile (· == Text.byte '0')).reverse
  if digits.isEmpty then [] else Text.byte '.' :: digits

def write (nanoseconds : Nat) : Text :=
  let seconds := nanoseconds / 1000000000
  let (year, month, day) := Calendar.ofDayNumber (seconds / 86400)
  padded 4 year ++ utf8 "-" ++ padded 2 month ++ utf8 "-" ++ padded 2 day ++ utf8 "T" ++
    padded 2 (seconds / 3600 % 24) ++ utf8 ":" ++ padded 2 (seconds / 60 % 60) ++ utf8 ":" ++
    padded 2 (seconds % 60) ++ fractionText (nanoseconds % 1000000000) ++ utf8 "Z"

/-- Milliseconds from one point to another. Durations are nanoseconds in 64
bits; longer ones are cut to what fits. -/
def milliseconds (start stop : Int) : Int :=
  let duration := max (-Word.bound) (min (stop - start) (Word.bound - 1))
  Int.tdiv duration 1000000

end Parlance.Timestamp
