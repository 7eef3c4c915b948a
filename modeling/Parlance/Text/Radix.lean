import Parlance.Text.Decimal
import Parlance.Text.Unicode

namespace Parlance.Text

/-! Numerals in bases up to sixteen, and characters given by their code. -/

def digitValue? (b : UInt8) : Option Nat :=
  if byte '0' ≤ b && b ≤ byte '9' then some (b.toNat - 48)
  else if byte 'a' ≤ b && b ≤ byte 'f' then some (b.toNat - 87)
  else if byte 'A' ≤ b && b ≤ byte 'F' then some (b.toNat - 55)
  else none

/-- Reads on after the digits that denote `value` so far. -/
def readRadix (base : Nat) : Nat → Text → Option Nat
  | value, [] => some value
  | value, b :: rest =>
    match digitValue? b with
    | some digit => if digit < base then readRadix base (value * base + digit) rest else none
    | none => none

def ofRadix? (base : Nat) (text : Text) : Option Nat :=
  if text.isEmpty then none else readRadix base 0 text

/-- Whether a code point is a character: surrogates are not. -/
def isScalar (code : Nat) : Bool :=
  code < 0xD800 || (0xE000 ≤ code && code ≤ 0x10FFFF)

/-- The character whose code the first `count` bytes give in hexadecimal, and
what follows them. -/
def charOfHex? (count : Nat) (text : Text) : Option (Char × Text) :=
  if text.length < count then none
  else
    match ofRadix? 16 (text.take count) with
    | some code => if isScalar code then some (Char.ofNat code, text.drop count) else none
    | none => none

def hexDigits (upper : Bool) : Nat → Nat → Text
  | 0, _ => []
  | count + 1, value =>
    let digit := value % 16
    let letter := if upper then 55 else 87
    hexDigits upper count (value / 16) ++
      [if digit < 10 then (48 + digit).toUInt8 else (letter + digit).toUInt8]

end Parlance.Text
