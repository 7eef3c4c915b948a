import Parlance.Json.Reader
import Parlance.Proofs.Scanning.Numeral

namespace Parlance.Binary64

/-!
Whole numbers as binary floating point. They are exact as long as 53 bits are
enough, and words are within the range.
-/

theorem roundedQuotient_le (num den : Nat) : roundedQuotient num den ≤ num / den + 1 := by
  unfold roundedQuotient
  dsimp only
  split <;> omega

theorem roundedQuotient_of_dvd {num den : Nat} (divides : num % den = 0) (positive : 0 < den) :
    roundedQuotient num den = num / den := by
  unfold roundedQuotient
  rw [divides]
  refine if_neg ?_
  simp
  omega

/-- A fraction divided by a power of two. -/
def scaled (num den : Nat) (exponent : Int) : Nat × Nat :=
  if 0 ≤ exponent then (num, den * Nat.pow 2 exponent.toNat)
  else (num * Nat.pow 2 (-exponent).toNat, den)

theorem rounded_eq (num den : Nat) :
    rounded num den =
      let estimate : Int := (Nat.log2 num : Int) - Nat.log2 den - 52
      let exponent :=
        if (scaled num den estimate).1 / (scaled num den estimate).2 < Nat.pow 2 52 then
          estimate - 1
        else estimate
      let digits := roundedQuotient (scaled num den exponent).1 (scaled num den exponent).2
      if 0 ≤ exponent then ⟨digits * Nat.pow 2 exponent.toNat, 1⟩
      else ⟨digits, Nat.pow 2 (-exponent).toNat⟩ := rfl

section Rounded

variable {value : Nat} (positive : 0 < value)
include positive

/-- A number that leaves bits unused is shifted up. -/
theorem rounded_of_small {unused : Nat} (bits : Nat.log2 value + (unused + 1) = 52) :
    rounded value 1 = ⟨value * Nat.pow 2 (unused + 1), Nat.pow 2 (unused + 1)⟩ := by
  have least : 2 ^ Nat.log2 value ≤ value := Nat.log2_self_le (by omega)
  have one : Nat.log2 1 = 0 := by decide
  have estimate : (Nat.log2 value : Int) - Nat.log2 1 - 52 = -((unused + 1 : Nat) : Int) := by
    rw [one]
    omega
  have negative : ¬ 0 ≤ -((unused + 1 : Nat) : Int) := by omega
  have shifted : scaled value 1 (-((unused + 1 : Nat) : Int)) = (value * 2 ^ (unused + 1), 1) := by
    rw [scaled, if_neg negative, Int.neg_neg, Int.toNat_natCast]
    rfl
  have enough : ¬ value * 2 ^ (unused + 1) < Nat.pow 2 52 := by
    have product : 2 ^ 52 ≤ value * 2 ^ (unused + 1) := by
      rw [← bits, Nat.pow_add]
      exact Nat.mul_le_mul_right _ least
    exact Nat.not_lt.mpr product
  rw [rounded_eq]
  simp only [estimate, shifted, Nat.div_one, if_neg enough, if_neg negative, Int.neg_neg,
    Int.toNat_natCast, roundedQuotient_of_dvd (Nat.mod_one _) Nat.one_pos]
  rfl

/-- A number that needs all bits loses those that are too many. -/
theorem rounded_of_large {excess : Nat} (bits : Nat.log2 value = 52 + excess) :
    rounded value 1 = ⟨roundedQuotient value (Nat.pow 2 excess) * Nat.pow 2 excess, 1⟩ := by
  have least : 2 ^ Nat.log2 value ≤ value := Nat.log2_self_le (by omega)
  have one : Nat.log2 1 = 0 := by decide
  have estimate : (Nat.log2 value : Int) - Nat.log2 1 - 52 = (excess : Int) := by
    rw [one]
    omega
  have natural : (0 : Int) ≤ (excess : Int) := by omega
  have shifted : scaled value 1 (excess : Int) = (value, 2 ^ excess) := by
    rw [scaled, if_pos natural, Nat.one_mul, Int.toNat_natCast]
    rfl
  have enough : ¬ value / 2 ^ excess < Nat.pow 2 52 := by
    rw [bits, Nat.pow_add] at least
    exact Nat.not_lt.mpr ((Nat.le_div_iff_mul_le (Nat.two_pow_pos excess)).mpr least)
  rw [rounded_eq]
  simp only [estimate, shifted, if_neg enough, if_pos natural, Int.toNat_natCast]
  rfl

/-- Either nothing is lost, or the bits beyond 53 are. -/
theorem rounded_cases :
    (∃ shift, rounded value 1 = ⟨value * Nat.pow 2 shift, Nat.pow 2 shift⟩) ∨
      ∃ excess, Nat.pow 2 (52 + excess) ≤ value ∧
        rounded value 1 = ⟨roundedQuotient value (Nat.pow 2 excess) * Nat.pow 2 excess, 1⟩ := by
  by_cases small : Nat.log2 value < 52
  · have bits : Nat.log2 value + (51 - Nat.log2 value + 1) = 52 := by omega
    exact .inl ⟨_, rounded_of_small positive bits⟩
  · obtain ⟨excess, bits⟩ := Nat.exists_eq_add_of_le (Nat.not_lt.mp small)
    have least : 2 ^ Nat.log2 value ≤ value := Nat.log2_self_le (by omega)
    rw [bits] at least
    exact .inr ⟨excess, least, rounded_of_large positive bits⟩

theorem rounded_den : 0 < (rounded value 1).den := by
  rcases rounded_cases positive with ⟨shift, same⟩ | ⟨excess, _, same⟩
  · rw [same]
    exact Nat.two_pow_pos shift
  · rw [same]
    exact Nat.one_pos

/-- Rounding at most doubles a number. -/
theorem rounded_le : (rounded value 1).num ≤ 2 * value * (rounded value 1).den := by
  rcases rounded_cases positive with ⟨shift, same⟩ | ⟨excess, least, same⟩
  · rw [same]
    exact Nat.mul_le_mul_right _ (by omega)
  · rw [same]
    have power : 2 ^ excess ≤ value :=
      Nat.le_trans (Nat.pow_le_pow_right (by omega) (by omega)) least
    calc roundedQuotient value (Nat.pow 2 excess) * Nat.pow 2 excess
        ≤ (value / Nat.pow 2 excess + 1) * Nat.pow 2 excess :=
          Nat.mul_le_mul_right _ (roundedQuotient_le ..)
      _ = value / Nat.pow 2 excess * Nat.pow 2 excess + Nat.pow 2 excess := Nat.succ_mul ..
      _ ≤ value + value := Nat.add_le_add (Nat.div_mul_le_self ..) power
      _ = 2 * value * 1 := by omega

/-- With 53 bits nothing is lost. -/
theorem rounded_exact (within : value ≤ Nat.pow 2 53) :
    (rounded value 1).num / (rounded value 1).den = value := by
  rcases rounded_cases positive with ⟨shift, same⟩ | ⟨excess, least, same⟩
  · rw [same]
    exact Nat.mul_div_cancel _ (Nat.two_pow_pos shift)
  · rw [same, Nat.div_one]
    have atMostOne : 52 + excess ≤ 53 :=
      (Nat.pow_le_pow_iff_right (by omega : 1 < 2)).mp (Nat.le_trans least within)
    have divides : value % Nat.pow 2 excess = 0 := by
      rcases (by omega : excess = 0 ∨ excess = 1) with rfl | rfl
      · exact Nat.mod_one value
      · -- Only the bound itself has one bit more, and that bit is zero.
        rw [Nat.le_antisymm within least]
    rw [roundedQuotient_of_dvd divides (Nat.two_pow_pos excess)]
    exact Nat.div_mul_cancel (Nat.dvd_of_mod_eq_zero divides)

end Rounded

/-- A word is within the range, and with 53 bits it is exact. -/
theorem ofDecimal?_natural {value : Nat} (isWord : (value : Int) < Word.bound) :
    ∃ size, ofDecimal? value 0 = some size ∧
      (value ≤ Nat.pow 2 53 → size.truncated false = value) := by
  by_cases zero : value = 0
  · subst zero
    exact ⟨⟨0, 1⟩, rfl, fun _ => rfl⟩
  · have positive : 0 < value := Nat.pos_of_ne_zero zero
    have notSmall : ¬ (0 : Int) < -(400 + Nat.log2 value : Int) := by omega
    have inRange {bits : Nat} (enough : 64 ≤ bits) :
        ¬ Nat.pow 2 bits * (rounded value 1).den ≤ (rounded value 1).num := by
      have bound : Word.bound = 2 ^ 63 := rfl
      have double : 2 * value < 2 ^ 64 := by omega
      have power : 2 * value < Nat.pow 2 bits :=
        Nat.lt_of_lt_of_le double (Nat.pow_le_pow_right Nat.two_pos enough)
      exact Nat.not_le.mpr (Nat.lt_of_le_of_lt (rounded_le positive)
        (Nat.mul_lt_mul_of_pos_right power (rounded_den positive)))
    refine ⟨rounded value 1, ?_, fun within => ?_⟩
    · have scale : value * Nat.pow 10 (0 : Int).toNat = value := Nat.mul_one value
      unfold ofDecimal?
      rw [if_neg zero, if_neg (by decide), if_neg notSmall, if_pos (Int.le_refl 0), scale]
      generalize whole : 1024 = bits
      exact if_neg (inRange (by omega))
    · simp only [Magnitude.truncated, rounded_exact positive within, if_pos isWord]
      rfl

end Parlance.Binary64
