import Parlance.Text
import Parlance.Word

namespace Parlance.Text

/-! Decimal numerals. -/

def digit (value : Nat) : UInt8 :=
  (48 + value).toUInt8

def ofNat (value : Nat) : Text :=
  if value < 10 then [digit value] else ofNat (value / 10) ++ [digit (value % 10)]

def ofInt : Int → Text
  | .ofNat value => ofNat value
  | .negSucc value => byte '-' :: ofNat (value + 1)

/-- What a run of digits denotes; other bytes are not looked at. -/
def digitsValue (digits : Text) : Nat :=
  digits.foldl (fun value b => value * 10 + (b.toNat - 48)) 0

def toNat? (text : Text) : Option Nat :=
  if !text.isEmpty && text.all isDigit then some (digitsValue text) else none

/-- Reads digits with an optional sign in front. -/
def toInt? : Text → Option Int
  | [] => none
  | b :: rest =>
    if b = byte '-' then (toNat? rest).map fun value => -(value : Int)
    else if b = byte '+' then (toNat? rest).map fun value => (value : Int)
    else (toNat? (b :: rest)).map fun value => (value : Int)

/-- The 64-bit integer a signed numeral denotes, if it is in range. -/
def toInt64? (text : Text) : Option Int64 :=
  match toInt? text with
  | some value =>
    if Word.isSigned value then some (Int64.ofInt value) else none
  | none => none

def ofInt64 (value : Int64) : Text :=
  ofInt value.toInt

end Parlance.Text
