import Parlance.Proofs.Text.Characters
import Parlance.Text.Trim

namespace Parlance.Text

/-! A text without white space at its ends is not trimmed. -/

/-- An ASCII byte that is not white space. -/
def IsSolid (b : UInt8) : Prop :=
  b.toNat < 128 ∧ isWhiteSpace (Char.ofNat b.toNat) = false

instance (b : UInt8) : Decidable (IsSolid b) :=
  inferInstanceAs (Decidable (_ ∧ _))

section Trim

variable {last : UInt8} (solid : IsSolid last)
include solid

theorem IsSolid.stops : isContinuation last = false := by
  have small := solid.1
  rw [Bool.eq_false_iff, Ne, isContinuation_iff]
  omega

/-- The character at the front leaves the last byte alone. -/
theorem charWidth_lt (b : UInt8) (inner : Text) :
    charWidth (b :: (inner ++ [last])) - 1 ≤ inner.length := by
  have width := charWidth_le (List.cons_ne_nil b inner)
  have same := sequence?_stop solid.stops (List.cons_ne_nil b inner) []
  rw [List.cons_append] at same
  rw [charWidth, same]
  simp only [charWidth, List.length_cons] at width
  omega

theorem trimStartFrom_ne_nil {pending : Nat} {inner : Text} (short : pending ≤ inner.length) :
    trimStartFrom pending (inner ++ [last]) ≠ [] := by
  induction inner generalizing pending with
  | nil =>
      cases Nat.le_zero.mp short
      have found := sequence?_one [] solid.1
      simp [trimStartFrom, found, solid.2]
  | cons b inner inductionHypothesis =>
      cases pending with
      | succ pending => exact inductionHypothesis (Nat.le_of_succ_le_succ short)
      | zero =>
          have width := charWidth_lt solid b inner
          rw [List.cons_append, trimStartFrom]
          split
          · next code wide found =>
              rw [charWidth, found] at width
              split
              · exact inductionHypothesis width
              · exact List.cons_ne_nil _ _
          · exact List.cons_ne_nil _ _

theorem isWhite_eq_false (inner : Text) : isWhite (inner ++ [last]) = false :=
  List.isEmpty_eq_false_iff.mpr (trimStartFrom_ne_nil solid (Nat.zero_le inner.length))

theorem trimEndFrom_eq_self {pending : Nat} {inner : Text} (short : pending ≤ inner.length) :
    trimEndFrom pending (inner ++ [last]) = inner ++ [last] := by
  induction inner generalizing pending with
  | nil =>
      cases Nat.le_zero.mp short
      have shows : isWhite [last] = false := isWhite_eq_false solid []
      simp [trimEndFrom, shows]
  | cons b inner inductionHypothesis =>
      cases pending with
      | succ pending =>
          exact congrArg (b :: ·) (inductionHypothesis (Nat.le_of_succ_le_succ short))
      | zero =>
          have shows : isWhite (b :: (inner ++ [last])) = false :=
            isWhite_eq_false solid (b :: inner)
          rw [List.cons_append, trimEndFrom, shows]
          exact congrArg (b :: ·) (inductionHypothesis (charWidth_lt solid b inner))

theorem trim_eq_self {first : UInt8} (solid' : IsSolid first) (inner : Text) :
    trim (first :: (inner ++ [last])) = first :: (inner ++ [last]) := by
  have start : trimStart (first :: (inner ++ [last])) = first :: (inner ++ [last]) := by
    simp [trimStart, trimStartFrom, sequence?_one _ solid'.1, solid'.2]
  rw [trim, start]
  exact trimEndFrom_eq_self solid (Nat.zero_le (first :: inner).length)

end Trim

theorem IsSolid.trim {first : UInt8} (solid : IsSolid first) (rest : Text) :
    ∃ others, trim (first :: rest) = first :: others := by
  have start : trimStart (first :: rest) = first :: rest := by
    simp [trimStart, trimStartFrom, sequence?_one _ solid.1, solid.2]
  have seen : isWhite (first :: rest) = false := by
    rw [isWhite, start]
    rfl
  refine ⟨trimEndFrom (charWidth (first :: rest) - 1) rest, ?_⟩
  rw [Text.trim, start, trimEndFrom, seen]
  rfl

end Parlance.Text
