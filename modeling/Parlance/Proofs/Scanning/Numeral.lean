import Parlance.Proofs.Scanning.Spelling

namespace Parlance.Text

/-! Numerals denote the numbers they are written for. -/

theorem isDigit_digit {value : Nat} (small : value < 10) : isDigit (digit value) = true := by
  have checked : ∀ value : Fin 10, isDigit (digit value) = true := by decide
  exact checked ⟨value, small⟩

theorem digit_toNat {value : Nat} (small : value < 10) : (digit value).toNat - 48 = value := by
  have checked : ∀ value : Fin 10, (digit value).toNat - 48 = value := by decide
  exact checked ⟨value, small⟩

theorem isNumeral_ofNat (value : Nat) : IsNumeral (ofNat value) := by
  fun_induction ofNat value with
  | case1 value small => exact ⟨by simp, by simpa using isDigit_digit small⟩
  | case2 value large inductionHypothesis =>
      refine ⟨by simp, ?_⟩
      intro b member
      rcases List.mem_append.mp member with inside | last
      · exact inductionHypothesis.2 b inside
      · rw [List.mem_singleton.mp last]
        exact isDigit_digit (Nat.mod_lt value (by decide))

theorem digitsValue_ofNat (value : Nat) : digitsValue (ofNat value) = value := by
  fun_induction ofNat value with
  | case1 value small => simpa [digitsValue] using digit_toNat small
  | case2 value large inductionHypothesis =>
      unfold digitsValue at inductionHypothesis ⊢
      rw [List.foldl_append, inductionHypothesis, List.foldl_cons, List.foldl_nil,
        digit_toNat (Nat.mod_lt value (by decide))]
      omega

theorem toInt?_of_isNumeral {digits : Text} (isNumeral : IsNumeral digits) :
    toInt? digits = some (digitsValue digits : Int) := by
  obtain ⟨nonempty, all⟩ := isNumeral
  cases digits with
  | nil => contradiction
  | cons first rest =>
      -- neither sign is a digit
      have isDigit := all first (by simp)
      have noMinus : first ≠ byte '-' := by
        rintro rfl
        exact absurd isDigit (by decide)
      have noPlus : first ≠ byte '+' := by
        rintro rfl
        exact absurd isDigit (by decide)
      have read : toNat? (first :: rest) = some (digitsValue (first :: rest)) := by
        simpa [toNat?] using all
      simp only [toInt?, if_neg noMinus, if_neg noPlus, read]
      rfl

theorem isSigned_iff {value : Int} :
    Word.isSigned value = true ↔
      -9223372036854775808 ≤ value ∧ value < 9223372036854775808 := by
  rw [Word.isSigned, Bool.and_eq_true, decide_eq_true_iff, decide_eq_true_iff]
  exact Iff.rfl

/-- Numerals have no sign. -/
theorem nonneg_of_toInt64? {digits : Text} {value : Int64} (isNumeral : IsNumeral digits)
    (read : toInt64? digits = some value) : 0 ≤ value.toInt := by
  rw [toInt64?, toInt?_of_isNumeral isNumeral] at read
  dsimp only at read
  split at read
  · next signed =>
      cases read
      have bounds := isSigned_iff.mp signed
      rw [Int64.toInt_ofInt_of_le (by omega) (by omega)]
      omega
  · cases read

theorem ofInt64_eq_ofNat {value : Int64} (nonnegative : 0 ≤ value.toInt) :
    ofInt64 value = ofNat value.toInt.toNat := by
  obtain ⟨natural, same⟩ := Int.eq_ofNat_of_zero_le nonnegative
  rw [ofInt64, same]
  rfl

theorem isNumeral_ofInt64 {value : Int64} (nonnegative : 0 ≤ value.toInt) :
    IsNumeral (ofInt64 value) := by
  rw [ofInt64_eq_ofNat nonnegative]
  exact isNumeral_ofNat _

theorem toInt64?_ofInt64 {value : Int64} (nonnegative : 0 ≤ value.toInt) :
    toInt64? (ofInt64 value) = some value := by
  rw [toInt64?, toInt?_of_isNumeral (isNumeral_ofInt64 nonnegative), ofInt64_eq_ofNat nonnegative,
    digitsValue_ofNat, Int.toNat_of_nonneg nonnegative]
  have signed : Word.isSigned value.toInt = true :=
    isSigned_iff.mpr ⟨value.le_toInt, value.toInt_lt⟩
  simp [signed]

end Parlance.Text
