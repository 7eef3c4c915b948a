import Parlance.Binary64
import Parlance.Text.Radix
import Parlance.Text.Unicode

namespace Parlance.Json

/-!
JSON texts as values. Every reader returns what it has read and the text behind
it. Numbers keep their spelling, since it decides what they may be used for.
-/

inductive Value where
  | null
  | bool (value : Bool)
  | number (spelling : Text)
  | text (value : Text)
  | list (items : List Value)
  | record (fields : List (Text × Value))

instance : Inhabited Value := ⟨.null⟩

def isSpace (b : UInt8) : Bool :=
  b == 32 || b == 9 || b == 10 || b == 13

def skipSpaces (text : Text) : Text :=
  text.dropWhile isSpace

def unit? : Text → Option Nat
  | a :: b :: c :: d :: _ => Text.ofRadix? 16 [a, b, c, d]
  | _ => none

def escapeValue? (b : UInt8) : Option UInt8 :=
  if b = 34 || b = 92 || b = 47 then some b
  else if b = Text.byte 'b' then some 8
  else if b = Text.byte 'f' then some 12
  else if b = Text.byte 'n' then some 10
  else if b = Text.byte 'r' then some 13
  else if b = Text.byte 't' then some 9
  else none

/-- The body of a string as it is spelled, after the opening quote, and the text
after the closing one. Control characters and unknown escapes are refused. -/
def spelled? : Text → Option (Text × Text)
  | [] => none
  | b :: rest =>
    if b = 34 then some ([], rest)
    else if b = 92 then
      match rest with
      | [] => none
      | c :: after =>
        if (escapeValue? c).isSome || (c = Text.byte 'u' && (unit? after).isSome) then
          (spelled? after).map fun (body, rest) => (b :: c :: body, rest)
        else none
    else if b < 32 then none
    else (spelled? rest).map fun (body, rest) => (b :: body, rest)

def pair? (high low : Nat) : Option Nat :=
  if 0xD800 ≤ high && high < 0xDC00 && 0xDC00 ≤ low && low < 0xE000 then
    some (0x10000 + (high - 0xD800) * 1024 + (low - 0xDC00))
  else none

def escapedUnit? : Text → Option Nat
  | 92 :: 117 :: after => unit? after
  | _ => none

/-- Replaces escapes; `skip` bytes belong to one that has been replaced. A
surrogate without its partner becomes U+FFFD. -/
def unescapeFrom : (skip : Nat) → Text → Text
  | _, [] => []
  | skip + 1, _ :: rest => unescapeFrom skip rest
  | 0, b :: rest =>
    if b ≠ 92 then b :: unescapeFrom 0 rest
    else
      match escapedUnit? (b :: rest) with
      | some code =>
        match (escapedUnit? (rest.drop 5)).bind (pair? code) with
        | some character => Text.encode (Char.ofNat character) ++ unescapeFrom 11 rest
        | none =>
          (if Text.isScalar code then Text.encode (Char.ofNat code)
            else Text.encode Text.replacement) ++ unescapeFrom 5 rest
      | none => ((rest.head?.bind escapeValue?).map ([·])).getD [] ++ unescapeFrom 1 rest

/-- Every malformed byte is replaced by U+FFFD. -/
def repaired (text : Text) : Text :=
  Text.ofChars text.chars

def string? (text : Text) : Option (Text × Text) :=
  (spelled? text).map fun (body, rest) => (repaired (unescapeFrom 0 body), rest)

def digits? (text : Text) : Option (Text × Text) :=
  let digits := text.takeWhile Text.isDigit
  if digits.isEmpty then none else some (digits, text.dropWhile Text.isDigit)

def whole? : Text → Option (Text × Text)
  | 48 :: rest => some ([48], rest)
  | text => digits? text

def fraction? : Text → Option (Text × Text)
  | 46 :: rest => (digits? rest).map fun (digits, rest) => (46 :: digits, rest)
  | text => some ([], text)

def exponent? : Text → Option (Text × Text)
  | [] => some ([], [])
  | b :: rest =>
    if b = Text.byte 'e' || b = Text.byte 'E' then
      match rest with
      | c :: after =>
        if c = Text.byte '+' || c = Text.byte '-' then
          (digits? after).map fun (digits, rest) => (b :: c :: digits, rest)
        else (digits? rest).map fun (digits, rest) => (b :: digits, rest)
      | [] => none
    else some ([], b :: rest)

def number? (text : Text) : Option (Text × Text) := do
  let (sign, text) : Text × Text :=
    match text with
    | 45 :: rest => ([45], rest)
    | _ => ([], text)
  let (whole, text) ← whole? text
  let (fraction, text) ← fraction? text
  let (exponent, text) ← exponent? text
  some (sign ++ whole ++ fraction ++ exponent, text)

/-- The size of a number and whether it is negative, as floating point; `none`
if it is beyond the range. -/
def float? (spelling : Text) : Option (Bool × Binary64.Magnitude) := do
  let negative := Text.startsWith (· == 45) spelling
  let text := if negative then spelling.drop 1 else spelling
  let whole := text.takeWhile Text.isDigit
  let text := text.dropWhile Text.isDigit
  let fraction := if Text.startsWith (· == 46) text then (text.drop 1).takeWhile Text.isDigit else []
  let text := if fraction.isEmpty then text else text.drop (fraction.length + 1)
  let exponent := (Text.toInt? (text.drop 1)).getD 0
  let size ← Binary64.ofDecimal? (Text.digitsValue (whole ++ fraction)) (exponent - fraction.length)
  some (negative, size)

def maxDepth : Nat := 10000

mutual

/-- A value. `room` is how many more brackets may be opened, `fuel` bounds the
steps. -/
def value? (room : Nat) : (fuel : Nat) → Text → Option (Value × Text)
  | 0, _ => none
  | fuel + 1, text =>
    match text with
    | 34 :: rest => (string? rest).map fun (value, rest) => (.text value, rest)
    | 91 :: rest =>
      match room with
      | 0 => none
      | room + 1 =>
        match skipSpaces rest with
        | 93 :: rest => some (.list [], rest)
        | rest => (items? room fuel rest).map fun (items, rest) => (.list items, rest)
    | 123 :: rest =>
      match room with
      | 0 => none
      | room + 1 =>
        match skipSpaces rest with
        | 125 :: rest => some (.record [], rest)
        | rest => (fields? room fuel rest).map fun (fields, rest) => (.record fields, rest)
    | _ =>
      if Text.hasPrefix (utf8 "null") text then some (.null, text.drop 4)
      else if Text.hasPrefix (utf8 "true") text then some (.bool true, text.drop 4)
      else if Text.hasPrefix (utf8 "false") text then some (.bool false, text.drop 5)
      else (number? text).map fun (spelling, rest) => (.number spelling, rest)

def items? (room : Nat) : (fuel : Nat) → Text → Option (List Value × Text)
  | 0, _ => none
  | fuel + 1, text => do
    let (item, rest) ← value? room fuel (skipSpaces text)
    match skipSpaces rest with
    | 93 :: rest => some ([item], rest)
    | 44 :: rest =>
      let (items, rest) ← items? room fuel rest
      some (item :: items, rest)
    | _ => none

def fields? (room : Nat) : (fuel : Nat) → Text → Option (List (Text × Value) × Text)
  | 0, _ => none
  | fuel + 1, text => do
    match skipSpaces text with
    | 34 :: rest =>
      let (name, rest) ← string? rest
      match skipSpaces rest with
      | 58 :: rest =>
        let (value, rest) ← value? room fuel (skipSpaces rest)
        match skipSpaces rest with
        | 125 :: rest => some ([(name, value)], rest)
        | 44 :: rest =>
          let (fields, rest) ← fields? room fuel rest
          some ((name, value) :: fields, rest)
        | _ => none
      | _ => none
    | _ => none

end

def read? (text : Text) : Option Value :=
  match value? maxDepth (text.length + 1) (skipSpaces text) with
  | some (value, rest) => if (skipSpaces rest).isEmpty then some value else none
  | none => none

namespace Value

mutual

def isFinite : Value → Bool
  | .number spelling => (float? spelling).isSome
  | .list items => itemsFinite items
  | .record fields => fieldsFinite fields
  | _ => true

def itemsFinite : List Value → Bool
  | [] => true
  | item :: items => item.isFinite && itemsFinite items

def fieldsFinite : List (Text × Value) → Bool
  | [] => true
  | (_, value) :: fields => value.isFinite && fieldsFinite fields

end

/-- A text in place of the one before; a null keeps that. -/
def asText? (before : Text) : Value → Option Text
  | .null => some before
  | .text value => some value
  | _ => none

/-- A 64-bit integer in place of the one before. It is spelled without a point
and an exponent. -/
def asInt? (before : Int) : Value → Option Int
  | .null => some before
  | .number spelling => (Text.toInt64? spelling).map Int64.toInt
  | _ => none

/-- A letter regardless of case. Two letters outside ASCII are variants of
letters inside. -/
def foldedChar (character : Char) : Char :=
  if character.toNat = 0x17F then 's'
  else if character.toNat = 0x212A then 'k'
  else character.toLower

def sameName (a b : Text) : Bool :=
  a.chars.map foldedChar == b.chars.map foldedChar

end Value

end Parlance.Json
