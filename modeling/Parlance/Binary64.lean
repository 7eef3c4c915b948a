import Parlance.Word

namespace Parlance.Binary64

/-!
Decimal numbers as binary floating point of 64 bits. Only sizes are handled
here; the sign is kept apart.
-/

structure Magnitude where
  num : Nat
  den : Nat

/-- The quotient of two numbers, rounded to a whole number with ties to even. -/
def roundedQuotient (num den : Nat) : Nat :=
  let quotient := num / den
  let remainder := num % den
  if den < 2 * remainder || (2 * remainder == den && quotient % 2 == 1) then quotient + 1
  else quotient

/-- A positive fraction rounded to 53 significant bits. Sizes that are too
small for that many are rounded further than needed, which leaves them below one. -/
def rounded (num den : Nat) : Magnitude :=
  let estimate : Int := (Nat.log2 num : Int) - Nat.log2 den - 52
  let scaled (exponent : Int) : Nat × Nat :=
    if 0 ≤ exponent then (num, den * Nat.pow 2 exponent.toNat) else (num * Nat.pow 2 (-exponent).toNat, den)
  let (n, d) := scaled estimate
  let exponent := if n / d < Nat.pow 2 52 then estimate - 1 else estimate
  let (n, d) := scaled exponent
  let digits := roundedQuotient n d
  if 0 ≤ exponent then ⟨digits * Nat.pow 2 exponent.toNat, 1⟩ else ⟨digits, Nat.pow 2 (-exponent).toNat⟩

def ofDecimal? (digits : Nat) (exponent : Int) : Option Magnitude :=
  if digits = 0 then some ⟨0, 1⟩
  else if 400 < exponent then none
  else if exponent < -(400 + Nat.log2 digits : Int) then some ⟨0, 1⟩
  else
    let size :=
      if 0 ≤ exponent then rounded (digits * Nat.pow 10 exponent.toNat) 1
      else rounded digits (Nat.pow 10 (-exponent).toNat)
    if Nat.pow 2 1024 * size.den ≤ size.num then none else some size

/-- The number without its fraction as a 64-bit integer; a number outside their
range becomes the least one. -/
def Magnitude.truncated (size : Magnitude) (negative : Bool) : Int :=
  let whole : Int := (size.num / size.den : Nat)
  if negative then (if whole ≤ Word.bound then -whole else -Word.bound)
  else if whole < Word.bound then whole
  else -Word.bound

end Parlance.Binary64
