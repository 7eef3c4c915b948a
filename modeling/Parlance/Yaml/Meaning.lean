import Parlance.Binary64
import Parlance.Calendar
import Parlance.Text.Radix

namespace Parlance.Yaml

/-!
What a plain scalar means: a null, a truth value, a number, a point in time, or
the text itself.
-/

/-- Numbers with a fraction or an exponent are binary floating point; only
their whole part matters here. -/
inductive Meaning where
  | null
  | bool (value : Bool)
  | int (value : Int)
  /-- The whole part as a 64-bit integer; `none` if it is too large or not a number. -/
  | float (whole? : Option Int)
  | timestamp
  | text
  deriving DecidableEq

namespace Meaning

/-- The whole part of a number as a 64-bit integer, unless it is above all of them. -/
def wholeOf (negative : Bool) (size : Binary64.Magnitude) : Option Int :=
  if !negative && Word.bound * size.den < size.num then none else some (size.truncated negative)

def sign : Text → Bool × Text
  | b :: rest =>
    if b = Text.byte '-' then (true, rest)
    else if b = Text.byte '+' then (false, rest)
    else (false, b :: rest)
  | [] => (false, [])

def exponent? : Text → Option Int
  | [] => some 0
  | b :: rest =>
    if b = Text.byte 'e' || b = Text.byte 'E' then
      let (negative, digits) := sign rest
      (Text.toNat? digits).map fun value => if negative then -(value : Int) else value
    else none

def float? (text : Text) : Option (Option Int) := do
  let (negative, text) := sign text
  let whole := text.takeWhile Text.isDigit
  let text := text.dropWhile Text.isDigit
  let (fraction, text) :=
    match text with
    | 46 :: rest => (rest.takeWhile Text.isDigit, rest.dropWhile Text.isDigit)
    | _ => ([], text)
  if whole.isEmpty && fraction.isEmpty then none
  else
    let exponent ← exponent? text
    let size ← Binary64.ofDecimal? (Text.digitsValue (whole ++ fraction)) (exponent - fraction.length)
    some (wholeOf negative size)

/-- Digits in the base that they start with: hexadecimal, octal or binary, and
octal also after a zero alone. -/
def natural? (text : Text) : Option Nat :=
  match text with
  | 48 :: mark :: b :: rest =>
    if mark = Text.byte 'x' || mark = Text.byte 'X' then Text.ofRadix? 16 (b :: rest)
    else if mark = Text.byte 'o' || mark = Text.byte 'O' then Text.ofRadix? 8 (b :: rest)
    else if mark = Text.byte 'b' || mark = Text.byte 'B' then Text.ofRadix? 2 (b :: rest)
    else Text.ofRadix? 8 (mark :: b :: rest)
  | [48] => some 0
  | 48 :: rest => Text.ofRadix? 8 rest
  | _ => Text.ofRadix? 10 text

def signed? (digits? : Text → Option Nat) (text : Text) : Option Int :=
  let (negative, digits) := sign text
  (digits? digits).bind fun value =>
    if negative then (if value ≤ Word.bound then some (-value) else none)
    else if value < Word.bound then some value
    else none

/-- Integers have 64 bits, with a sign or without. -/
def int? (text : Text) : Option Int :=
  match signed? natural? text with
  | some value => some value
  | none =>
    match natural? text with
    | some value => if value < Word.count then some value else none
    | none => none

/-- A sign may also follow the mark of an octal or binary number. -/
def markedInt? : Text → Option Int
  | 48 :: mark :: rest =>
    if mark = Text.byte 'b' then signed? (Text.ofRadix? 2) rest
    else if mark = Text.byte 'o' then signed? (Text.ofRadix? 8) rest
    else none
  | _ => none

def number? : Text → Option (Nat × Text)
  | a :: b :: rest =>
    if !Text.isDigit a then none
    else if Text.isDigit b then some (Text.digitsValue [a, b], rest)
    else some (Text.digitsValue [a], b :: rest)
  | [a] => if Text.isDigit a then some (Text.digitsValue [a], []) else none
  | [] => none

def expect? (b : UInt8) : Text → Option Text
  | a :: rest => if a = b then some rest else none
  | [] => none

def clock? (text : Text) : Option Text := do
  let (hour, text) ← number? text
  let (minute, text) ← number? (← expect? (Text.byte ':') text)
  let (second, text) ← number? (← expect? (Text.byte ':') text)
  if 24 ≤ hour || 60 ≤ minute || 60 ≤ second then none
  else
    match text with
    | mark :: digit :: rest =>
      if (mark = Text.byte '.' || mark = Text.byte ',') && Text.isDigit digit then
        some (rest.dropWhile Text.isDigit)
      else some text
    | _ => some text

def isZone (text : Text) : Bool :=
  match text with
  | [90] => true
  | [mark, a, b, 58, c, d] =>
    (mark == Text.byte '+' || mark == Text.byte '-') && [a, b, c, d].all Text.isDigit &&
      Text.digitsValue [a, b] ≤ 24 && Text.digitsValue [c, d] ≤ 60
  | _ => false

/-- Whether the text is a point in time, if it starts like one. -/
def timestamp? (text : Text) : Option Bool := do
  let year := text.takeWhile Text.isDigit
  if year.length ≠ 4 then none
  else
    let (month, rest) ← number? (← expect? (Text.byte '-') (text.drop 4))
    let (day, rest) ← number? (← expect? (Text.byte '-') rest)
    if !Calendar.isDate (Text.digitsValue year) month day then none
    else
      match rest with
      | [] => some true
      | b :: following =>
        if b = Text.byte 'T' || b = Text.byte 't' then some (isZone (← clock? following))
        else if b = Text.byte ' ' then
          some ((← clock? (following.dropWhile (· == Text.byte ' '))).isEmpty)
        else none

def isTimestamp (text : Text) : Bool :=
  (timestamp? text).getD false

def words : List (Text × Meaning) :=
  [(utf8 "", .null), (utf8 "~", .null), (utf8 "null", .null), (utf8 "Null", .null),
    (utf8 "NULL", .null), (utf8 "true", .bool true), (utf8 "True", .bool true),
    (utf8 "TRUE", .bool true), (utf8 "false", .bool false), (utf8 "False", .bool false),
    (utf8 "FALSE", .bool false), (utf8 ".nan", .float none), (utf8 ".NaN", .float none),
    (utf8 ".NAN", .float none), (utf8 ".inf", .float none), (utf8 ".Inf", .float none),
    (utf8 ".INF", .float none), (utf8 "+.inf", .float none), (utf8 "+.Inf", .float none),
    (utf8 "+.INF", .float none), (utf8 "-.inf", .float (some (-Word.bound))),
    (utf8 "-.Inf", .float (some (-Word.bound))), (utf8 "-.INF", .float (some (-Word.bound)))]

/-- Whether every underscore has a digit on both sides. -/
def underscoresSeparate : (afterDigit : Bool) → Text → Bool
  | _, [] => true
  | afterDigit, b :: rest =>
    if b = Text.byte '_' then
      afterDigit && Text.startsWith Text.isDigit rest && underscoresSeparate false rest
    else underscoresSeparate (Text.isDigit b) rest

/-- Numbers start with a digit, a sign or a point. Underscores do not count;
behind a point in front they have to separate digits. -/
def number (text : Text) : Meaning :=
  let digits := text.filter (· != Text.byte '_')
  if Text.startsWith (· == Text.byte '.') text then
    if underscoresSeparate false text then
      match float? digits with
      | some whole? => .float whole?
      | none => .text
    else .text
  else if isTimestamp text then .timestamp
  else
    match int? digits with
    | some value => .int value
    | none =>
      match float? digits with
      | some whole? => .float whole?
      | none =>
        match markedInt? digits with
        | some value => .int value
        | none => .text

def ofPlain (text : Text) : Meaning :=
  match words.lookup text with
  | some meaning => meaning
  | none =>
    if Text.startsWith (fun b => Text.isDigit b || b == Text.byte '+' || b == Text.byte '-' ||
        b == Text.byte '.') text then number text
    else .text

def floatOfInt (value : Int) : Meaning :=
  .float ((Binary64.ofDecimal? value.natAbs 0).bind (wholeOf (value < 0)))

/-- Words that are truth values where one is expected, and text elsewhere. -/
def switch? (text : Text) : Option Bool :=
  let on := ["y", "Y", "yes", "Yes", "YES", "on", "On", "ON"]
  let off := ["n", "N", "no", "No", "NO", "off", "Off", "OFF"]
  if (on.map utf8).contains text then some true
  else if (off.map utf8).contains text then some false
  else none

end Meaning

end Parlance.Yaml
