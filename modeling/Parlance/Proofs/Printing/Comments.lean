import Parlance.Command
import Parlance.Proofs.Printing.Parentheses
import Parlance.Proofs.Text.Split

namespace Parlance

open Scanner

/-!
The formatter warns of comments exactly when there are some. It looks for them line
by line and knows nothing of tokens; what it finds are the comments that the scanner
skips, and the canonical text has none.
-/

namespace Printer

def quoteRegion (inString : Bool) : Region :=
  if inString then .string else .code

def toggled (inString : Bool) (b : UInt8) : Bool :=
  if b = Text.quote then !inString else inString

theorem lineHasComment_cons (inString : Bool) (b : UInt8) (rest : Text) :
    lineHasComment inString (b :: rest) = true ↔
      (toggled inString b = false ∧ b = Symbol.slash.byte ∧ rest.head? = some Symbol.slash.byte) ∨
        lineHasComment (toggled inString b) rest = true := by
  have slash : Text.byte '/' = Symbol.slash.byte := rfl
  simp [lineHasComment, toggled, slash, and_assoc]

/-- Inside of a line, a quote opens or closes a string, and nothing else does. -/
theorem behind_quoteRegion (inString : Bool) {b : UInt8} (inLine : b ≠ Text.newline)
    (next : Option UInt8) :
    (quoteRegion inString).behind b next =
      if toggled inString b = false ∧ b = Symbol.slash.byte ∧ next = some Symbol.slash.byte
      then .comment else quoteRegion (toggled inString b) := by
  by_cases isQuote : b = Text.quote
  · have noSlash : b ≠ Symbol.slash.byte := isQuote ▸ (by decide)
    cases inString <;> simp [quoteRegion, toggled, Region.behind, isQuote, isQuote ▸ noSlash]
  · cases inString <;> simp [quoteRegion, toggled, Region.behind, isQuote, inLine]

/-- Lines are looked at one by one, which makes no difference as strings and comments
end with their line. -/
theorem commented_iff_lines (inString : Bool) (text : Text) :
    ∀ line lines, Text.splitOn Text.newline text = line :: lines →
      (Commented (quoteRegion inString) text ↔
        lineHasComment inString line = true ∨ lines.any (lineHasComment false) = true) := by
  induction text generalizing inString with
  | nil =>
      rintro _ _ ⟨⟩
      simp [Commented, chart, lineHasComment]
  | cons b rest inductionHypothesis =>
      obtain ⟨line, lines, tail⟩ :=
        List.exists_cons_of_ne_nil (Text.splitOn_ne_nil Text.newline rest)
      have starts := Text.head?_splitOn Text.newline
        (by decide : Symbol.slash.byte ≠ Text.newline) tail
      have step : Commented (quoteRegion inString) (b :: rest) ↔
          Commented ((quoteRegion inString).behind b rest.head?) rest := by
        cases inString <;> simp [Commented, chart, quoteRegion]
      intro _ _ whole
      rw [Text.splitOn_cons Text.newline b tail] at whole
      rw [step]
      by_cases ends : b = Text.newline
      · rw [if_pos ends] at whole
        cases whole
        have nextLine : (quoteRegion inString).behind b rest.head? = quoteRegion false := by
          subst ends
          cases inString <;> rfl
        rw [nextLine, inductionHypothesis false line lines tail]
        simp [lineHasComment]
      · rw [if_neg ends] at whole
        cases whole
        rw [lineHasComment_cons, starts, behind_quoteRegion inString ends]
        split
        · next opens =>
            obtain ⟨others, whole⟩ := List.head?_eq_some_iff.mp opens.2.2
            have inside : Commented .comment rest := ⟨Symbol.slash.byte, by rw [whole]; exact .head _⟩
            exact iff_of_true inside (.inl (.inl opens))
        · next inLine =>
            rw [or_iff_right inLine]
            exact inductionHypothesis _ line lines tail

end Printer

theorem hasComments_iff (source : Text) : hasComments source = true ↔ Commented .code source := by
  obtain ⟨line, lines, whole⟩ :=
    List.exists_cons_of_ne_nil (Text.splitOn_ne_nil Text.newline source)
  rw [hasComments, whole, List.any_cons, Bool.or_eq_true]
  exact (Printer.commented_iff_lines false source line lines whole).symm

theorem hasComments_of_format {file source formatted : Text}
    (accepted : format file source = .ok formatted) : hasComments formatted = false := by
  unfold format at accepted
  cases parsed : parse file source with
  | error error =>
      rw [parsed] at accepted
      contradiction
  | ok program =>
      rw [parsed] at accepted
      cases accepted
      rw [Bool.eq_false_iff, Ne, hasComments_iff]
      exact (Program.format_opens (wellFormed_of_parse parsed)).2

/-- What stands in front of each token, behind the one before it. -/
def gaps (source : Text) : Nat → List Token → List Text
  | _, [] => []
  | passed, token :: tokens =>
    (source.drop passed).take (token.offset - passed) ::
      gaps source (token.offset + token.value.length) tokens

theorem gaps_of_placed {text last : Text} {pieces : List Piece}
    (assembled : Assembled text pieces last) (front : Text) :
    ∀ tokens : List Token, tokens.map Token.placement =
        placed front.length pieces ++ [(.endOfFile, [], front.length + text.length)] →
      gaps (front ++ text) front.length tokens = pieces.map Piece.gap ++ [last] := by
  induction assembled generalizing front with
  | @done gap isGap =>
      intro tokens places
      obtain ⟨token, rfl, place⟩ := List.map_eq_singleton_iff.mp places
      have offset : token.offset = front.length + gap.length := congrArg (·.2.2) place
      simp [gaps, offset]
  | @piece gap value rest last kind pieces isGap form tail inductionHypothesis =>
      intro tokens places
      obtain ⟨token, others, rfl, place, places⟩ := List.map_eq_cons_iff.mp places
      have offset : token.offset = front.length + gap.length := congrArg (·.2.2) place
      have sameValue : token.value = value := congrArg (·.2.1) place
      have first : ((front ++ (gap ++ value ++ rest)).drop front.length).take gap.length = gap := by
        simp
      have passed : front.length + gap.length + value.length = (front ++ gap ++ value).length := by
        simp only [List.length_append]
      have behind : gaps (front ++ gap ++ value ++ rest) (front ++ gap ++ value).length others =
          pieces.map Piece.gap ++ [last] := by
        refine inductionHypothesis (front ++ gap ++ value) others ?_
        rw [places, ← passed]
        simp [Nat.add_assoc]
      rw [gaps, offset, sameValue, Nat.add_sub_cancel_left, first, passed, List.map_cons,
        List.cons_append, ← behind]
      simp only [List.append_assoc]

namespace Command.World

theorem not_warning {text : Text} (starts : text.head? ≠ some (Text.byte 'w')) :
    ¬commentWarning <+: text := by
  rintro ⟨rest, rfl⟩
  exact starts rfl

section Format

variable {world : World} {file name source formatted : Text} (presentation : Presentation)
  (found : world.source file false = .ok (source, name))
include found

/-- The warning is the first thing that is said, and nothing else starts like it. -/
theorem errors_format (accepted : Parlance.format name source = .ok formatted) :
    ∃ complaint, (world.format file presentation).errors =
        (if hasComments source then commentWarning else []) ++ complaint ∧
      complaint.head? ≠ some (Text.byte 'w') := by
  simp only [format, found, accepted]
  cases presentation with
  | print => exact ⟨[], (List.append_nil _).symm, by decide⟩
  | compare => exact ⟨[], (List.append_nil _).symm, by decide⟩
  | overwrite =>
      cases world.write file formatted with
      | ok files => exact ⟨[], (List.append_nil _).symm, by decide⟩
      | error reason =>
          have starts : (utf8 "error writing file: " ++ line reason).head? = some (Text.byte 'e') := rfl
          refine ⟨utf8 "error writing file: " ++ line reason, List.append_assoc .., ?_⟩
          rw [starts]
          decide

theorem warned_iff :
    commentWarning <+: (world.format file presentation).errors ↔
      (∃ formatted, Parlance.format name source = .ok formatted) ∧ hasComments source = true := by
  cases formatting : Parlance.format name source with
  | error error =>
      have starts : (world.format file presentation).errors.head? = some (Text.byte '[') := by
        simp only [format, found, formatting]
        rfl
      refine iff_of_false (not_warning ?_) (by simp)
      rw [starts]
      decide
  | ok formatted =>
      obtain ⟨complaint, whole, starts⟩ := errors_format presentation found formatting
      rw [whole]
      cases hasComments source with
      | true => exact iff_of_true (List.prefix_append _ _) ⟨⟨formatted, rfl⟩, rfl⟩
      | false => exact iff_of_false (not_warning starts) (by simp)

end Format

end Command.World

open Command

/-- The formatter finds comments where the scanner skips some, and the command warns of
them exactly when it drops them, because the canonical text has none. -/
theorem hasComments_iff_skipped {name source : Text} {tokens : List Token}
    (scanned : tokenize name source = .ok tokens) :
    (hasComments source = true ↔
      ∃ gap ∈ gaps source 0 tokens, [Symbol.slash.byte, Symbol.slash.byte] <:+: gap) ∧
    (∀ formatted, format name source = .ok formatted → hasComments formatted = false) ∧
    ∀ (world : World) (file : Text) (presentation : Presentation),
      world.source file false = .ok (source, name) →
      (World.commentWarning <+: (world.format file presentation).errors ↔
        (∃ formatted, format name source = .ok formatted) ∧
          ∃ gap ∈ gaps source 0 tokens, [Symbol.slash.byte, Symbol.slash.byte] <:+: gap) := by
  obtain ⟨pieces, last, decomposes, places⟩ := placed_of_tokenize scanned
  have skipped : hasComments source = true ↔
      ∃ gap ∈ gaps source 0 tokens, [Symbol.slash.byte, Symbol.slash.byte] <:+: gap := by
    have between := gaps_of_placed decomposes.assembled [] tokens (by simpa using places)
    rw [hasComments_iff, commented_assembled decomposes.assembled, ← between]
    rfl
  refine ⟨skipped, fun _ => hasComments_of_format, fun world file presentation found => ?_⟩
  rw [← skipped]
  exact World.warned_iff presentation found

theorem hasComments_iff_skipped_behind_string :
    let source := utf8 "'//'// x"
    let tokens : List Token := [⟨.string, utf8 "'//'", 0, ⟨[], ⟨1, 1⟩, ⟨1, 5⟩⟩⟩,
      ⟨.endOfFile, [], 8, ⟨[], ⟨1, 9⟩, ⟨1, 9⟩⟩⟩]
    tokenize [] source = .ok tokens ∧ gaps source 0 tokens = [[], utf8 "// x"] ∧
      hasComments source = true ∧ hasComments (utf8 "'//'") = false := by
  intro source tokens
  have string : (splitGap false source).2 = Text.quote :: utf8 "//'// x" := by decide
  have isString : split Text.quote (utf8 "//'// x") = .ok ⟨.string, utf8 "'//'", utf8 "// x"⟩ := by rfl
  have scanned : tokenize [] source = .ok tokens :=
    (scan_lexeme [] .origin 0 string isString).trans
      (congrArg (Except.map _) (scan_gap [] _ _ (by decide)))
  have between : gaps source 0 tokens = [[], utf8 "// x"] := by decide
  refine ⟨scanned, between, (hasComments_iff_skipped scanned).1.mpr ⟨utf8 "// x", ?_, ?_⟩, by decide⟩
  · rw [between]
    exact .tail _ (.head _)
  · exact (List.prefix_append [_, _] (utf8 " x")).isInfix

end Parlance
