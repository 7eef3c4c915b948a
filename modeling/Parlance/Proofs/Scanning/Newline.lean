import Parlance.Proofs.Scanning.Spelling
import Parlance.Proofs.Text.Characters

namespace Parlance

/-!
Scanning is compositional at newlines. A newline ends every comment, word and
string just as the end of the text does, so the first part is scanned as if
nothing followed it, and the second part as if it stood alone.
-/

namespace Text

theorem charWidth_stop {stop : UInt8} (stops : isContinuation stop = false) {text : Text}
    (nonempty : text ≠ []) (more : Text) : charWidth (text ++ stop :: more) = charWidth text := by
  simp only [charWidth, sequence?_stop stops nonempty]

/-- A newline does not complete a character. -/
theorem firstChar_newline {text : Text} (nonempty : text ≠ []) (more : Text) :
    firstChar (text ++ newline :: more) = firstChar text := by
  simp only [firstChar, charWidth_stop (by decide : isContinuation newline = false) nonempty]
  exact List.take_append_of_le_length (charWidth_le nonempty)

section Runs

variable {accepts : UInt8 → Bool} {more : Text} (stops : startsWith accepts more = false)
  (text : Text)
include stops

theorem takeWhile_stop : (text ++ more).takeWhile accepts = text.takeWhile accepts := by
  induction text with
  | nil => exact Scanner.takeWhile_run (List.forall_mem_nil _) stops
  | cons b rest inductionHypothesis => simp [List.takeWhile_cons, inductionHypothesis]

theorem dropWhile_stop : (text ++ more).dropWhile accepts = text.dropWhile accepts ++ more := by
  induction text with
  | nil => exact Scanner.dropWhile_run (List.forall_mem_nil _) stops
  | cons b rest inductionHypothesis =>
      simp only [List.cons_append, List.dropWhile_cons, inductionHypothesis]
      split <;> rfl

theorem startsWith_stop : startsWith accepts (text ++ more) = startsWith accepts text := by
  cases text with
  | nil => exact stops
  | cons b rest => rfl

end Runs

end Text

namespace Position

/-- The invariant of walking over characters: what is pending of the last one
lies in front of a byte that starts another one. -/
theorem advanceFrom_append (position : Position) {pending : Nat} {front : Text}
    (within : pending ≤ front.length) {rest : Text}
    (starts : Text.startsWith Text.isContinuation rest = false) :
    position.advanceFrom pending (front ++ rest) =
      (position.advanceFrom pending front).advance rest := by
  cases rest with
  | nil => simp [advance, advanceFrom]
  | cons stop more =>
      induction front generalizing position pending with
      | nil =>
          obtain rfl : pending = 0 := by simpa using within
          rfl
      | cons b front inductionHypothesis =>
          cases pending with
          | succ pending => exact inductionHypothesis position (by simpa using within)
          | zero =>
              simp only [List.cons_append, advanceFrom]
              split
              · exact inductionHypothesis _ (by simp)
              · rw [← List.cons_append, Text.charWidth_stop starts (by simp)]
                have width : Text.charWidth (b :: front) ≤ (b :: front).length :=
                  Text.charWidth_le (by simp)
                exact inductionHypothesis _ (by simp only [List.length_cons] at width; omega)

theorem advance_append (position : Position) (front : Text) {rest : Text}
    (starts : Text.startsWith Text.isContinuation rest = false) :
    position.advance (front ++ rest) = (position.advance front).advance rest :=
  advanceFrom_append position (Nat.zero_le _) starts

theorem advance_newline (position : Position) (text more : Text) :
    position.advance (text ++ Text.newline :: more) =
      advance ⟨(position.advance text).line + 1, 1⟩ more := by
  rw [advance_append position text (by rfl : Text.startsWith _ (Text.newline :: more) = false)]
  rfl

end Position

namespace Scanner

/-- How a gap goes on behind a byte, or that it ends in front of it. -/
def gapMode? (inComment : Bool) (b : UInt8) (next : Option UInt8) : Option Bool :=
  if inComment then some (b != Text.newline)
  else if Text.isBlank b then some false
  else if b = Symbol.slash.byte ∧ next = some Symbol.slash.byte then some true
  else none

theorem splitGap_cons (inComment : Bool) (b : UInt8) (rest : Text) :
    splitGap inComment (b :: rest) =
      match gapMode? inComment b rest.head? with
      | some mode => (b :: (splitGap mode rest).1, (splitGap mode rest).2)
      | none => ([], b :: rest) := by
  rw [splitGap]
  unfold gapMode?
  split
  · rfl
  · split
    · rfl
    · split <;> rfl

theorem gapMode?_newline (inComment : Bool) (b : UInt8) (rest more : Text) :
    gapMode? inComment b (rest ++ Text.newline :: more).head? = gapMode? inComment b rest.head? := by
  cases rest with
  | nil =>
      have single : Text.newline ≠ Symbol.slash.byte := by decide
      simp [gapMode?, single]
  | cons next rest => rfl

/-- A text that is one gap up to its end goes on as a gap. -/
theorem splitGap_newline_of_nil {inComment : Bool} {text : Text}
    (behind : (splitGap inComment text).2 = []) (more : Text) :
    splitGap inComment (text ++ Text.newline :: more) =
      (text ++ Text.newline :: (splitGap false more).1, (splitGap false more).2) := by
  induction text generalizing inComment with
  | nil =>
      have blank : Text.isBlank Text.newline = true := by decide
      cases inComment <;> simp [splitGap_cons, gapMode?, blank]
  | cons b rest inductionHypothesis =>
      rw [splitGap_cons] at behind
      rw [List.cons_append, splitGap_cons, gapMode?_newline]
      cases mode : gapMode? inComment b rest.head? with
      | none => simp [mode] at behind
      | some inside =>
          simp only [mode] at behind
          simp [inductionHypothesis behind]

/-- What stands behind the gap is not touched by a newline at its end. -/
theorem splitGap_newline_of_cons {inComment : Bool} {text rest : Text} {first : UInt8}
    (behind : (splitGap inComment text).2 = first :: rest) (more : Text) :
    splitGap inComment (text ++ Text.newline :: more) =
      ((splitGap inComment text).1, first :: (rest ++ Text.newline :: more)) := by
  induction text generalizing inComment with
  | nil => simp [splitGap] at behind
  | cons b others inductionHypothesis =>
      rw [splitGap_cons] at behind
      rw [List.cons_append, splitGap_cons, gapMode?_newline, splitGap_cons]
      cases mode : gapMode? inComment b others.head? with
      | none =>
          simp only [mode] at behind
          cases behind
          rfl
      | some inside =>
          simp only [mode] at behind
          simp [inductionHypothesis behind]

def Lexeme.followedBy (more : Text) (lexeme : Lexeme) : Lexeme :=
  { lexeme with rest := lexeme.rest ++ more }

section Words

variable {behind : Text} (ends : Text.startsWith Text.isWord behind = false) (text : Text)
include ends

theorem wordEnds_stop : wordEnds (text ++ behind) = wordEnds text := by
  have upper := startsWith_eq_false_of_imp (fun _ => isWord_of_isUpper) ends
  simp only [wordEnds, keywordAhead, Text.startsWith_stop ends, Text.takeWhile_stop upper,
    Text.dropWhile_stop upper]

theorem splitNumber_stop :
    splitNumber (text ++ behind) = (splitNumber text).map (.followedBy behind) := by
  have digit := startsWith_eq_false_of_imp (fun _ => isWord_of_isDigit) ends
  simp only [splitNumber, Text.takeWhile_stop digit, Text.dropWhile_stop digit,
    Text.takeWhile_stop ends, wordEnds_stop ends]
  split <;> rfl

theorem splitName_stop :
    splitName (text ++ behind) = (splitName text).map (.followedBy behind) := by
  have inside := startsWith_eq_false_of_imp (fun _ => isWord_of_isNameByte) ends
  simp only [splitName, Text.takeWhile_stop inside, Text.dropWhile_stop inside,
    Text.takeWhile_stop ends, wordEnds_stop ends]
  split <;> rfl

theorem splitKeyword_stop :
    splitKeyword (text ++ behind) = (splitKeyword text).map (.followedBy behind) := by
  simp only [splitKeyword, Text.takeWhile_stop ends, Text.dropWhile_stop ends]
  split
  · rfl
  · split <;> rfl

end Words

section Split

variable (text more : Text)

/-- A string that is not closed in front of the newline is not closed at all. -/
theorem splitString_newline :
    splitString (text ++ Text.newline :: more) =
      (splitString text).map (.followedBy (Text.newline :: more)) := by
  have inside : Text.startsWith isStringByte (Text.newline :: more) = false := by rfl
  simp only [splitString, Text.takeWhile_stop inside, Text.dropWhile_stop inside]
  cases text.dropWhile isStringByte with
  | nil => exact if_neg (by decide)
  | cons b rest =>
      simp only [List.cons_append]
      split <;> rfl

theorem split_newline (first : UInt8) :
    split first (text ++ Text.newline :: more) =
      (split first text).map (.followedBy (Text.newline :: more)) := by
  unfold split
  cases Symbol.ofByte? first with
  | some mark => rfl
  | none =>
      have ends : Text.startsWith Text.isWord (Text.newline :: more) = false := by rfl
      dsimp only
      rw [← List.cons_append, splitNumber_stop ends, splitString_newline, splitName_stop ends,
        splitKeyword_stop ends, Text.firstChar_newline (by simp)]
      repeat' split
      all_goals rfl

end Split

section Scan

variable {file text : Text} {position : Position} {offset : Nat} (more : Text)

/-- Behind a gap the scan starts anew on the next line. -/
theorem scan_newline_of_gap (behind : (splitGap false text).2 = []) :
    scan file position offset (text ++ Text.newline :: more) =
      scan file ⟨(position.advance text).line + 1, 1⟩ (offset + text.length + 1) more := by
  have parted := splitGap_newline_of_nil behind more
  have place : position.advance (text ++ Text.newline :: (splitGap false more).1) =
      Position.advance ⟨(position.advance text).line + 1, 1⟩ (splitGap false more).1 :=
    Position.advance_newline ..
  have passed : offset + (text ++ Text.newline :: (splitGap false more).1).length =
      offset + text.length + 1 + (splitGap false more).1.length := by
    simp only [List.length_append, List.length_cons]
    omega
  cases after : (splitGap false more).2 with
  | nil =>
      rw [scan_gap _ _ _ (by rw [parted, after]), scan_gap _ _ _ after, parted, place, passed]
  | cons first rest =>
      have after' : (splitGap false (text ++ Text.newline :: more)).2 = first :: rest := by
        rw [parted, after]
      cases accepted : split first rest with
      | error fault =>
          rw [scan_refused _ _ _ after' accepted, scan_refused _ _ _ after accepted, parted, place]
      | ok lexeme =>
          rw [scan_lexeme _ _ _ after' accepted, scan_lexeme _ _ _ after accepted, parted]
          dsimp only
          rw [place, passed]

/-- A faulty first part decides the scan. -/
theorem scan_newline_of_error {error : ScanError}
    (refused : scan file position offset text = .error error) :
    scan file position offset (text ++ Text.newline :: more) = .error error := by
  induction length : text.length using Nat.strongRecOn generalizing text position offset with
  | ind bound inductionHypothesis =>
    cases behind : (splitGap false text).2 with
    | nil =>
        rw [scan_gap _ _ _ behind] at refused
        contradiction
    | cons first rest =>
        have parted := splitGap_newline_of_cons behind more
        have behind' := congrArg Prod.snd parted
        cases accepted : split first rest with
        | error fault =>
            rw [scan_refused _ _ _ behind' (by rw [split_newline, accepted]; rfl), parted]
            rw [scan_refused _ _ _ behind accepted] at refused
            exact refused
        | ok lexeme =>
            rw [scan_lexeme _ _ _ behind' (by rw [split_newline, accepted]; rfl), parted]
            rw [scan_lexeme _ _ _ behind accepted] at refused
            dsimp only at refused ⊢
            cases tail : scan file _ _ lexeme.rest with
            | ok tokens =>
                rw [tail] at refused
                contradiction
            | error reason =>
                rw [tail] at refused
                cases refused
                have shorter : lexeme.rest.length < bound := length ▸ lexeme_rest_shorter behind accepted
                have same := inductionHypothesis _ shorter tail rfl
                simp only [Lexeme.followedBy, Lexeme.token] at same ⊢
                rw [same]
                rfl

/-- The tokens of the first part stay as they are, and the second part is
scanned from the next line on. -/
theorem scan_newline_of_ok {front : List Token} {last : Token}
    (scanned : scan file position offset text = .ok (front ++ [last])) :
    scan file position offset (text ++ Text.newline :: more) =
      (scan file ⟨last.span.stop.line + 1, 1⟩ (last.offset + 1) more).map (front ++ ·) := by
  induction length : text.length using Nat.strongRecOn generalizing text position offset front with
  | ind bound inductionHypothesis =>
    cases behind : (splitGap false text).2 with
    | nil =>
        have whole : (splitGap false text).1 = text := by
          simpa [behind] using splitGap_append false text
        rw [scan_gap _ _ _ behind, whole, Except.ok.injEq, List.singleton_eq_append_iff] at scanned
        rw [scan_newline_of_gap more behind]
        rcases scanned with ⟨rfl, same⟩ | ⟨_, empty⟩
        · cases same
          cases scan file _ _ more <;> rfl
        · simp at empty
    | cons first rest =>
        have parted := splitGap_newline_of_cons behind more
        have behind' := congrArg Prod.snd parted
        cases accepted : split first rest with
        | error fault =>
            rw [scan_refused _ _ _ behind accepted] at scanned
            contradiction
        | ok lexeme =>
            rw [scan_lexeme _ _ _ behind' (by rw [split_newline, accepted]; rfl), parted]
            rw [scan_lexeme _ _ _ behind accepted] at scanned
            dsimp only at scanned ⊢
            cases tail : scan file _ _ lexeme.rest with
            | error error =>
                rw [tail] at scanned
                contradiction
            | ok tokens =>
                rw [tail] at scanned
                obtain ⟨terminals, _, mapped⟩ := spells_of_scan tail
                cases front with
                | nil =>
                    cases scanned
                    simp at mapped
                | cons token front =>
                    cases scanned
                    have shorter : lexeme.rest.length < bound :=
                      length ▸ lexeme_rest_shorter behind accepted
                    have same := inductionHypothesis _ shorter tail rfl
                    simp only [Lexeme.followedBy, Lexeme.token] at same ⊢
                    rw [same]
                    cases scan file _ _ more <;> rfl

end Scan

end Scanner

end Parlance
