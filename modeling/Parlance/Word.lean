namespace Parlance.Word

/-! Numbers that fit in 64 bits. -/

/-- Signed words reach from `-bound` up to, but not including, `bound`. -/
def bound : Int := 9223372036854775808

def count : Nat := 18446744073709551616

def isSigned (value : Int) : Bool :=
  -bound ≤ value && value < bound

end Parlance.Word
