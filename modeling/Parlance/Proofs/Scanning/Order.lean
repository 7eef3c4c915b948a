import Parlance.Proofs.Scanning.Spelling

namespace Parlance

/-!
Tokens stand in the order of the text, each behind the end of the one before it,
so no two of them overlap or start at the same place.
-/

namespace Position

/-- Further up in the text, or further left in the same line. -/
def Before (first second : Position) : Prop :=
  first.line < second.line ∨ first.line = second.line ∧ first.column < second.column

theorem Before.trans {first second third : Position} (before : first.Before second)
    (before' : second.Before third) : first.Before third := by
  unfold Before at *
  omega

theorem Before.ne {first second : Position} (before : first.Before second) : first ≠ second := by
  rintro rfl
  unfold Before at before
  omega

/-- At the same place or further on. -/
def Until (first second : Position) : Prop :=
  first = second ∨ first.Before second

theorem Before.trans_until {first second third : Position} (before : first.Before second)
    (reaches : second.Until third) : first.Before third := by
  rcases reaches with rfl | before'
  · exact before
  · exact before.trans before'

theorem Until.trans_before {first second third : Position} (reaches : first.Until second)
    (before : second.Before third) : first.Before third := by
  rcases reaches with rfl | before'
  · exact before
  · exact before'.trans before

theorem Until.trans {first second third : Position} (reaches : first.Until second)
    (reaches' : second.Until third) : first.Until third := by
  rcases reaches with rfl | before
  · exact reaches'
  · exact .inr (before.trans_until reaches')

theorem Until.antisymm {first second : Position} (reaches : first.Until second)
    (reaches' : second.Until first) : first = second := by
  rcases reaches with same | before
  · exact same
  · exact absurd rfl (before.trans_until reaches').ne

theorem before_nextLine (position : Position) : position.Before ⟨position.line + 1, 1⟩ :=
  .inl (Int.lt_succ _)

theorem before_nextColumn (position : Position) :
    position.Before ⟨position.line, position.column + 1⟩ :=
  .inr ⟨rfl, Int.lt_succ _⟩

theorem until_advanceFrom (position : Position) (pending : Nat) (passed : Text) :
    position.Until (position.advanceFrom pending passed) := by
  induction passed generalizing position pending with
  | nil =>
      cases pending <;> exact .inl rfl
  | cons b rest inductionHypothesis =>
      cases pending with
      | succ pending => exact inductionHypothesis position pending
      | zero =>
          rw [advanceFrom]
          split
          · exact .inr (position.before_nextLine.trans_until (inductionHypothesis _ _))
          · exact .inr (position.before_nextColumn.trans_until (inductionHypothesis _ _))

theorem until_advance (position : Position) (passed : Text) :
    position.Until (position.advance passed) :=
  until_advanceFrom position 0 passed

theorem before_advance (position : Position) {passed : Text} (nonempty : passed ≠ []) :
    position.Before (position.advance passed) := by
  cases passed with
  | nil => contradiction
  | cons b rest =>
      rw [advance, advanceFrom]
      split
      · exact position.before_nextLine.trans_until (until_advanceFrom _ _ _)
      · exact position.before_nextColumn.trans_until (until_advanceFrom _ _ _)

end Position

/-- The first span takes some room, and the second does not start in front of its end. -/
def Span.Precedes (first second : Span) : Prop :=
  first.start.Before first.stop ∧ first.stop.Until second.start

theorem Span.Precedes.starts {first second : Span} (precedes : first.Precedes second) :
    first.start.Before second.start :=
  precedes.1.trans_until precedes.2

namespace Scanner

theorem scan_ordered {file : Text} {position : Position} {offset : Nat} {text : Text}
    {tokens : List Token} (scanned : scan file position offset text = .ok tokens) :
    (tokens.Pairwise fun first second => first.span.Precedes second.span) ∧
      ∀ token ∈ tokens, position.Until token.span.start ∧ token.span.start.Until token.span.stop := by
  replace scanned := scans_of_scan tokens scanned
  induction scanned with
  | @gap position offset text behind =>
      have start := position.until_advance (splitGap false text).1
      exact ⟨List.pairwise_singleton _ _, List.forall_mem_singleton.mpr ⟨start, .inl rfl⟩⟩
  | @lexeme position offset text rest first lexeme others behind accepted tail inductionHypothesis =>
      -- All that follows a lexeme starts where it ends, or behind that.
      obtain ⟨ordered, after⟩ := inductionHypothesis
      have start := position.until_advance (splitGap false text).1
      have moves := (position.advance (splitGap false text).1).before_advance (split_append accepted).2
      refine ⟨List.pairwise_cons.mpr ⟨?_, ordered⟩,
        List.forall_mem_cons.mpr ⟨⟨start, .inr moves⟩, ?_⟩⟩
      · exact fun token member => ⟨moves, (after token member).1⟩
      · intro token member
        obtain ⟨starts, stops⟩ := after token member
        exact ⟨start.trans (.inr (moves.trans_until starts)), stops⟩

end Scanner

theorem ordered_starts_of_tokenize {file source : Text} {tokens : List Token}
    (scanned : tokenize file source = .ok tokens) :
    (tokens.map (·.span.start)).Pairwise Position.Before :=
  List.pairwise_map.mpr <|
    (Scanner.scan_ordered scanned).1.imp Span.Precedes.starts

end Parlance
