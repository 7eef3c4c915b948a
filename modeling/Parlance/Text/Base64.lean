import Parlance.Text

namespace Parlance.Text

/-! Base 64 with padding. -/

def base64Alphabet : Text :=
  utf8 "ABCDEFGHIJKLMNOPQRSTUVWXYZabcdefghijklmnopqrstuvwxyz0123456789+/"

def base64Digit (value : Nat) : UInt8 :=
  base64Alphabet.getD (value % 64) 0

def toBase64 : Text → Text
  | a :: b :: c :: rest =>
    let value := a.toNat * 65536 + b.toNat * 256 + c.toNat
    base64Digit (value / 262144) :: base64Digit (value / 4096) :: base64Digit (value / 64) ::
      base64Digit value :: toBase64 rest
  | [a, b] =>
    let value := a.toNat * 65536 + b.toNat * 256
    [base64Digit (value / 262144), base64Digit (value / 4096), base64Digit (value / 64), byte '=']
  | [a] =>
    let value := a.toNat * 65536
    [base64Digit (value / 262144), base64Digit (value / 4096), byte '=', byte '=']
  | [] => []

def base64Value? (b : UInt8) : Option Nat :=
  base64Alphabet.findIdx? (· == b)

/-- Reads digits by four; padding may stand only at the very end. -/
def ofBase64Groups? : Text → Option Text
  | [] => some []
  | [a, b, 61, 61] => do
    let value := (← base64Value? a) * 64 + (← base64Value? b)
    some [(value / 16).toUInt8]
  | [a, b, c, 61] => do
    let value := ((← base64Value? a) * 64 + (← base64Value? b)) * 64 + (← base64Value? c)
    some [(value / 1024).toUInt8, (value / 4).toUInt8]
  | a :: b :: c :: d :: rest => do
    let value := (((← base64Value? a) * 64 + (← base64Value? b)) * 64 + (← base64Value? c)) * 64 +
      (← base64Value? d)
    let bytes ← ofBase64Groups? rest
    some ((value / 65536).toUInt8 :: (value / 256).toUInt8 :: value.toUInt8 :: bytes)
  | _ => none

/-- Line breaks between the digits do not count. -/
def ofBase64? (text : Text) : Option Text :=
  ofBase64Groups? (text.filter fun b => b != 10 && b != 13)

end Parlance.Text
