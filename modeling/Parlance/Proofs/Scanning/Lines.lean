import Parlance.Proofs.Scanning.Newline
import Parlance.Proofs.Source

namespace Parlance

/-!
Scanning line by line. A scan that starts further down finds the same lexemes
further down, so the tokens of a text behind a newline are those of the text
alone, moved by the lines and bytes in front of it.
-/

namespace Position

/-- The same column of a later line. -/
def down (lines : Nat) (position : Position) : Position :=
  ⟨position.line + lines, position.column⟩

theorem advanceFrom_down (lines : Nat) (position : Position) (pending : Nat) (passed : Text) :
    (position.down lines).advanceFrom pending passed =
      (position.advanceFrom pending passed).down lines := by
  induction passed generalizing position pending with
  | nil => cases pending <;> rfl
  | cons b rest inductionHypothesis =>
      cases pending with
      | succ pending => exact inductionHypothesis position pending
      | zero =>
          have nextLine : (⟨(position.down lines).line + 1, 1⟩ : Position) =
              down lines ⟨position.line + 1, 1⟩ := by
            simp only [down, Position.mk.injEq, and_true]
            omega
          simp only [advanceFrom, nextLine]
          split
          · exact inductionHypothesis ..
          · exact inductionHypothesis ⟨position.line, position.column + 1⟩ _

theorem advance_down (lines : Nat) (position : Position) (passed : Text) :
    (position.down lines).advance passed = (position.advance passed).down lines :=
  advanceFrom_down lines position 0 passed

theorem line_advanceFrom_of_not_mem (position : Position) (pending : Nat) {passed : Text}
    (inLine : Text.newline ∉ passed) : (position.advanceFrom pending passed).line = position.line := by
  induction passed generalizing position pending with
  | nil => cases pending <;> rfl
  | cons b rest inductionHypothesis =>
      obtain ⟨differs, inLine⟩ := List.ne_and_not_mem_of_not_mem_cons inLine
      cases pending with
      | succ pending => exact inductionHypothesis position pending inLine
      | zero =>
          rw [advanceFrom, if_neg differs.symm]
          exact inductionHypothesis _ _ inLine

/-- A line is passed with every newline, wherever characters start. -/
theorem line_advance (position : Position) (passed : Text) :
    (position.advance passed).line = position.line + passed.count Text.newline := by
  induction length : passed.length using Nat.strongRecOn generalizing passed position with
  | ind bound inductionHypothesis =>
    by_cases breaks : Text.newline ∈ passed
    · obtain ⟨front, rest, rfl, inLine⟩ := List.eq_append_cons_of_mem breaks
      have shorter : rest.length < bound := by
        rw [← length, List.length_append, List.length_cons]
        omega
      have sameLine : (position.advance front).line = position.line :=
        line_advanceFrom_of_not_mem position 0 inLine
      rw [advance_newline, inductionHypothesis _ shorter _ _ rfl, List.count_append,
        List.count_cons_self, List.count_eq_zero_of_not_mem inLine]
      dsimp only
      omega
    · rw [List.count_eq_zero_of_not_mem breaks]
      exact (line_advanceFrom_of_not_mem position 0 breaks).trans (by simp)

end Position

def Span.down (lines : Nat) (span : Span) : Span :=
  ⟨span.file, span.start.down lines, span.stop.down lines⟩

/-- The token behind further lines and bytes. -/
def Token.down (lines bytes : Nat) (token : Token) : Token :=
  { token with offset := token.offset + bytes, span := token.span.down lines }

def ScanError.down (lines : Nat) (error : ScanError) : ScanError :=
  { error with position := error.position.down lines }

theorem ScanError.span_down (lines : Nat) (error : ScanError) :
    (error.down lines).span = error.span.down lines := rfl

namespace Scanner

/-- What a scan further down answers. -/
def movedDown (lines bytes : Nat) : Except ScanError (List Token) → Except ScanError (List Token)
  | .ok tokens => .ok (tokens.map (Token.down lines bytes))
  | .error error => .error (error.down lines)

theorem movedDown_cons (lines bytes : Nat) (token : Token) (answer : Except ScanError (List Token)) :
    movedDown lines bytes (answer.map (token :: ·)) =
      (movedDown lines bytes answer).map (token.down lines bytes :: ·) := by
  cases answer <;> rfl

theorem scan_down (file : Text) (position : Position) (offset : Nat) (text : Text)
    (lines bytes : Nat) :
    scan file (position.down lines) (offset + bytes) text =
      movedDown lines bytes (scan file position offset text) := by
  induction position, offset, text using scan.induct file with
  | case1 position offset text behind =>
      rw [scan_gap _ _ _ behind, scan_gap _ _ _ behind, Position.advance_down]
      simp only [movedDown, List.map_cons, List.map_nil, Token.down, Span.down, Nat.add_right_comm]
  | case2 position offset text first rest behind fault refused =>
      rw [scan_refused _ _ _ behind refused, scan_refused _ _ _ behind refused, Position.advance_down]
      rfl
  | case3 position offset text gap start first rest behind lexeme accepted stop inductionHypothesis =>
      have token : lexeme.token file (start.down lines) (offset + bytes + gap.length) =
          (lexeme.token file start (offset + gap.length)).down lines bytes := by
        simp only [Lexeme.token, Token.down, Span.down, Position.advance_down, Nat.add_right_comm]
      rw [scan_lexeme _ _ _ behind accepted, scan_lexeme _ _ _ behind accepted, Position.advance_down]
      dsimp only
      rw [token, movedDown_cons]
      refine congrArg (Except.map _) (Eq.trans ?_ inductionHypothesis)
      simp only [Token.down, Lexeme.token, Nat.add_right_comm]
      rfl

/-- The end of file stands behind all bytes and in the last line. -/
theorem scan_last (file : Text) (position : Position) (offset : Nat) (text : Text) (last : Token) :
    ∀ front, scan file position offset text = .ok (front ++ [last]) →
      last.offset = offset + text.length ∧
        last.span.stop.line = position.line + text.count Text.newline := by
  induction position, offset, text using scan.induct file with
  | case1 position offset text behind =>
      intro front scanned
      have whole : (splitGap false text).1 = text := by
        simpa [behind] using splitGap_append false text
      rw [scan_gap _ _ _ behind, whole, Except.ok.injEq, List.singleton_eq_append_iff] at scanned
      rcases scanned with ⟨rfl, same⟩ | ⟨_, empty⟩
      · cases same
        exact ⟨rfl, position.line_advance text⟩
      · simp at empty
  | case2 position offset text first rest behind fault refused =>
      intro front scanned
      rw [scan_refused _ _ _ behind refused] at scanned
      contradiction
  | case3 position offset text gap start first rest behind lexeme accepted stop inductionHypothesis =>
      intro front scanned
      have parted : gap ++ (lexeme.value ++ lexeme.rest) = text := by
        rw [(split_append accepted).1, ← behind]
        exact splitGap_append false text
      rw [scan_lexeme _ _ _ behind accepted] at scanned
      dsimp only at scanned
      cases tail : scan file _ _ lexeme.rest with
      | error error =>
          rw [tail] at scanned
          contradiction
      | ok tokens =>
          rw [tail] at scanned
          obtain ⟨terminals, _, mapped⟩ := spells_of_scan tail
          cases front with
          | nil =>
              cases scanned
              simp at mapped
          | cons token front =>
              cases scanned
              obtain ⟨passed, lines⟩ := inductionHypothesis _ tail
              have lineOfStop : stop.line = start.line + lexeme.value.count Text.newline :=
                start.line_advance lexeme.value
              have lineOfStart : start.line = position.line + gap.count Text.newline :=
                position.line_advance gap
              rw [← parted]
              simp only [List.length_append, List.count_append]
              constructor
              · omega
              · rw [lines]
                omega

end Scanner

open Scanner

/-- The tokens of a text, a newline and another text are the tokens of the first without the end of
file, and behind them those of the second, further down by the lines of the first and its bytes. A
fault in the first is the fault of the whole; otherwise one in the second is, further down. -/
theorem tokenize_append_newline (file source more : Text) :
    let lines := source.count Text.newline + 1
    let bytes := source.length + 1
    (∀ error, tokenize file source = .error error →
      tokenize file (source ++ Text.newline :: more) = .error error) ∧
    ∀ tokens, tokenize file source = .ok tokens → ∃ front last,
      tokens = front ++ [last] ∧ last.kind = .endOfFile ∧
      (∀ others, tokenize file more = .ok others →
        tokenize file (source ++ Text.newline :: more) =
          .ok (front ++ others.map (Token.down lines bytes))) ∧
      ∀ error, tokenize file more = .error error → ∃ error',
        tokenize file (source ++ Text.newline :: more) = .error error' ∧
        error'.message = error.message ∧ error'.hint = error.hint ∧
        error'.span = error.span.down lines := by
  intro lines bytes
  refine ⟨fun error refused => scan_newline_of_error more refused, fun tokens scanned => ?_⟩
  obtain ⟨front, last, rfl, isEnd, _⟩ := tokenize_ended scanned
  obtain ⟨passed, lastLine⟩ := scan_last _ _ _ _ _ _ scanned
  have behind : tokenize file (source ++ Text.newline :: more) =
      (movedDown lines bytes (tokenize file more)).map (front ++ ·) := by
    have start : (⟨last.span.stop.line + 1, 1⟩ : Position) = Position.origin.down lines := by
      simp only [Position.down, Position.origin, lastLine, Position.mk.injEq, and_true, lines]
      omega
    have offset : last.offset + 1 = 0 + bytes := by omega
    rw [tokenize, scan_newline_of_ok more scanned, start, offset, scan_down]
    rfl
  refine ⟨front, last, rfl, isEnd, fun others scanned' => ?_, fun error refused => ?_⟩
  · rw [behind, scanned']
    rfl
  · rw [behind, refused]
    exact ⟨error.down lines, rfl, rfl, rfl, error.span_down lines⟩

end Parlance
