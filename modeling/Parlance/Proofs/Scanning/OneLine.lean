import Parlance.Proofs.Concatenation
import Parlance.Proofs.Printing.Comments

namespace Parlance

/-!
Lines put on one line, with blanks in place of the newlines. A blank parts lexemes as a
newline does, but it does not end a comment: what is read are the lines up to the first
that has one.
-/

namespace Text

def space : UInt8 :=
  byte ' '

/-- The lines up to the first with a comment. -/
def uncommented : List Text → List Text
  | [] => []
  | line :: lines => if hasComments line then [line] else line :: uncommented lines

theorem uncommented_ne_nil (line : Text) (lines : List Text) : uncommented (line :: lines) ≠ [] := by
  rw [uncommented]
  split <;> exact List.cons_ne_nil _ _

section Lines

variable {lines : List Text}

theorem uncommented_eq_self (plain : ∀ line ∈ lines.dropLast, hasComments line = false) :
    uncommented lines = lines := by
  induction lines with
  | nil => rfl
  | cons line lines inductionHypothesis =>
      cases lines with
      | nil =>
          rw [uncommented]
          split <;> rfl
      | cons next others =>
          obtain ⟨first, plain⟩ := List.forall_mem_cons.mp plain
          rw [uncommented, first, if_neg Bool.false_ne_true, inductionHypothesis plain]

theorem uncommented_prefix (commented : ∃ line ∈ lines.dropLast, hasComments line = true) :
    uncommented lines <+: lines.dropLast := by
  induction lines with
  | nil => exact List.prefix_refl []
  | cons line lines inductionHypothesis =>
      obtain ⟨commentLine, member, comment⟩ := commented
      cases lines with
      | nil => cases member
      | cons next others =>
          rw [uncommented, List.dropLast_cons_cons]
          split
          · exact List.prefix_append [line] _
          · next plain =>
              rw [List.dropLast_cons_cons, List.mem_cons] at member
              rcases member with rfl | member
              · exact absurd comment plain
              · exact (List.prefix_cons_inj line).mpr (inductionHypothesis ⟨commentLine, member, comment⟩)

end Lines

end Text

namespace Scanner

section Gaps

variable {rest gap more : Text}

theorem Gap.of_blanks (blanks : ∀ b ∈ gap, Text.isBlank b = true) (isGap : Gap rest more) :
    Gap rest (gap ++ more) := by
  induction gap with
  | nil => exact isGap
  | cons b gap inductionHypothesis =>
      obtain ⟨isBlank, blanks⟩ := List.forall_mem_cons.mp blanks
      exact .blank isBlank (inductionHypothesis blanks)

/-- In front of a lexeme on the same line there is no comment. -/
theorem Gap.blanks_of_line (isGap : Gap rest gap) (inLine : Text.newline ∉ gap ++ rest)
    (goesOn : rest ≠ []) : ∀ b ∈ gap, Text.isBlank b = true := by
  induction isGap with
  | nil => exact nofun
  | blank isBlank tail inductionHypothesis =>
      rw [List.cons_append, List.mem_cons, not_or] at inLine
      exact List.forall_mem_cons.mpr ⟨isBlank, inductionHypothesis inLine.2⟩
  | @comment body gap inside ends tail inductionHypothesis =>
      cases behind : gap ++ rest with
      | nil => exact absurd (List.append_eq_nil_iff.mp behind).2 goesOn
      | cons b others =>
          rw [behind] at ends
          have isNewline : b = Text.newline := ends b rfl
          simp [← isNewline, behind] at inLine

theorem Gap.blanks_of_uncommented (isGap : Gap rest gap)
    (uncommented : ¬[Symbol.slash.byte, Symbol.slash.byte] <:+: gap) :
    ∀ b ∈ gap, Text.isBlank b = true := by
  induction isGap with
  | nil => exact nofun
  | blank isBlank tail inductionHypothesis =>
      refine List.forall_mem_cons.mpr ⟨isBlank, inductionHypothesis fun inside => ?_⟩
      exact uncommented (inside.trans (List.suffix_cons _ _).isInfix)
  | @comment body gap inside ends tail inductionHypothesis =>
      exact absurd (List.prefix_append [_, _] (body ++ gap)).isInfix uncommented

/-- A comment runs on to the end of the line. -/
theorem Gap.swallows (isGap : Gap [] gap) (inLine : Text.newline ∉ gap ++ more)
    (commented : [Symbol.slash.byte, Symbol.slash.byte] <:+: gap) : Gap [] (gap ++ more) := by
  induction isGap with
  | nil => simp at commented
  | @blank b gap isBlank tail inductionHypothesis =>
      have noSlash : b ≠ Symbol.slash.byte := by
        rintro rfl
        exact absurd isBlank (by decide)
      rw [List.cons_append, List.mem_cons, not_or] at inLine
      have inside : [Symbol.slash.byte, Symbol.slash.byte] <:+: gap := by
        rcases List.infix_cons_iff.mp commented with starts | inside
        · exact absurd (List.cons_prefix_cons.mp starts).1.symm noSlash
        · exact inside
      exact .blank isBlank (inductionHypothesis inLine.2 inside)
  | @comment body gap inside ends tail inductionHypothesis =>
      cases gap with
      | cons b gap =>
          have isNewline : b = Text.newline := ends b rfl
          simp [isNewline] at inLine
      | nil =>
          have run : Text.newline ∉ body ++ more := by
            intro member
            simp only [List.append_nil, List.cons_append, List.mem_cons, not_or] at inLine
            exact inLine.2.2 member
          have whole := @Gap.comment [] (body ++ more) [] run nofun .nil
          simpa using whole

end Gaps

section Pieces

variable {text other last last' : Text} {pieces pieces' : List Piece}

/-- The pieces with more blanks in front of the first. -/
def indented (blanks : Text) : List Piece → List Piece
  | [] => []
  | piece :: pieces => { piece with gap := blanks ++ piece.gap } :: pieces

/-- A blank ends a lexeme as the end of the text does. -/
theorem Form.parted {rest value : Text} {kind : Kind} (form : Form rest kind value) (more : Text) :
    Form (rest ++ Text.space :: more) kind value := by
  have stays {accepts : UInt8 → Bool} (no : accepts Text.space = false)
      (stops : Text.startsWith accepts rest = false) :
      Text.startsWith accepts (rest ++ Text.space :: more) = false := by
    cases rest with
    | nil => exact no
    | cons b rest => exact stops
  cases form with
  | mark symbol single =>
      refine .mark symbol fun isSlash => ?_
      cases rest with
      | nil => exact fun found => absurd (Option.some.inj found) (by decide)
      | cons b rest => exact single isSlash
  | string isRaw => exact .string isRaw
  | number isNumeral maximal => exact .number isNumeral (stays (by decide) maximal)
  | name isName maximal => exact .name isName (stays (by decide) maximal)
  | keyword word => exact .keyword word

theorem Form.ne_nil {rest value : Text} {kind : Kind} (form : Form rest kind value) : value ≠ [] := by
  cases form with
  | mark symbol => exact List.cons_ne_nil _ _
  | string isRaw =>
      obtain ⟨inside, rfl, -⟩ := isRaw
      exact List.cons_ne_nil _ _
  | number isNumeral => exact isNumeral.1
  | name isName =>
      rintro rfl
      exact isName.elim
  | keyword word => exact word.spelling_ne_nil

theorem Assembled.isGap_last (assembled : Assembled text pieces last) : Gap [] last := by
  induction assembled with
  | done isGap => exact isGap
  | piece isGap form tail inductionHypothesis => exact inductionHypothesis

theorem Assembled.blanks_of_line (assembled : Assembled text pieces last)
    (inLine : Text.newline ∉ text) : ∀ piece ∈ pieces, ∀ b ∈ piece.gap, Text.isBlank b = true := by
  induction assembled with
  | done isGap => exact nofun
  | @piece gap value rest last kind pieces isGap form tail inductionHypothesis =>
      have inRest : Text.newline ∉ rest := fun member => inLine (List.mem_append_right _ member)
      rw [List.append_assoc] at inLine
      exact List.forall_mem_cons.mpr
        ⟨isGap.blanks_of_line inLine (by simp [form.ne_nil]), inductionHypothesis inRest⟩

theorem Assembled.indented (assembled : Assembled other pieces' last') {blanks : Text}
    (areBlanks : ∀ b ∈ blanks, Text.isBlank b = true) :
    ∃ last'', Assembled (blanks ++ other) (indented blanks pieces') last'' := by
  cases assembled with
  | done isGap => exact ⟨_, .done (.of_blanks areBlanks isGap)⟩
  | piece isGap form tail =>
      refine ⟨last', ?_⟩
      have whole := Assembled.piece (.of_blanks areBlanks isGap) form tail
      simpa [Scanner.indented] using whole

theorem Assembled.parted (first : Assembled text pieces last) (inLine : Text.newline ∉ text)
    (blanks : ∀ b ∈ last, Text.isBlank b = true) (second : Assembled other pieces' last') :
    ∃ last'', Assembled (text ++ Text.space :: other)
      (pieces ++ Scanner.indented (last ++ [Text.space]) pieces') last'' := by
  induction first with
  | @done gap isGap =>
      have areBlanks : ∀ b ∈ gap ++ [Text.space], Text.isBlank b = true := by
        intro b member
        rcases List.mem_append.mp member with member | member
        · exact blanks b member
        · rw [List.mem_singleton.mp member]
          decide
      have whole := second.indented areBlanks
      rwa [List.append_assoc] at whole
  | @piece gap value rest last kind pieces isGap form tail inductionHypothesis =>
      have inRest : Text.newline ∉ rest := fun member => inLine (by simp [member])
      obtain ⟨last'', behind⟩ := inductionHypothesis inRest blanks
      have gapBlanks := isGap.blanks_of_line (by rwa [← List.append_assoc]) (by simp [form.ne_nil])
      have whole := Assembled.piece (.of_blanks gapBlanks .nil) (form.parted other) behind
      refine ⟨last'', ?_⟩
      simpa using whole

theorem Assembled.swallowed (first : Assembled text pieces last)
    (inLine : Text.newline ∉ text ++ Text.space :: other)
    (commented : [Symbol.slash.byte, Symbol.slash.byte] <:+: last) :
    Assembled (text ++ Text.space :: other) pieces (last ++ Text.space :: other) := by
  induction first with
  | done isGap => exact .done (isGap.swallows inLine commented)
  | @piece gap value rest last kind pieces isGap form tail inductionHypothesis =>
      have inRest : Text.newline ∉ rest ++ Text.space :: other := fun member => inLine (by
        simp only [List.append_assoc, List.mem_append] at member ⊢
        exact .inr (.inr member))
      have inText : Text.newline ∉ gap ++ (value ++ rest) := fun member => inLine (by
        rw [List.append_assoc gap]
        exact List.mem_append_left _ member)
      have gapBlanks := isGap.blanks_of_line inText (by simp [form.ne_nil])
      have whole := Assembled.piece (.of_blanks gapBlanks .nil) (form.parted other)
        (inductionHypothesis inRest commented)
      simpa using whole

theorem joins_indented (piece : Piece) {blanks : Text} (nonempty : blanks ≠ []) :
    Joins piece (indented blanks pieces') := by
  intro next member touching
  cases pieces' with
  | nil => cases member
  | cons first others =>
      cases member
      exact absurd (List.append_eq_nil_iff.mp (touches_iff.mp touching).2.1).1 nonempty

theorem wordRuns_indented (runs : ∀ run ∈ wordRuns pieces', IsRun run) (blanks : Text) :
    ∀ run ∈ wordRuns (indented blanks pieces'), IsRun run := by
  cases pieces' with
  | nil => exact runs
  | cons first others =>
      obtain ⟨joins, behind⟩ := (wordRuns_cons_iff first others).mp runs
      refine (wordRuns_cons_iff _ others).mpr ⟨fun next member touching => ?_, behind⟩
      exact joins next member (touches_iff.mpr (touches_iff.mp touching))

/-- Words do not run into each other across a blank. -/
theorem wordRuns_parted (runs : ∀ run ∈ wordRuns pieces, IsRun run)
    (runs' : ∀ run ∈ wordRuns pieces', IsRun run) {blanks : Text} (nonempty : blanks ≠ []) :
    ∀ run ∈ wordRuns (pieces ++ indented blanks pieces'), IsRun run := by
  induction pieces with
  | nil => exact wordRuns_indented runs' blanks
  | cons piece pieces inductionHypothesis =>
      obtain ⟨joins, behind⟩ := (wordRuns_cons_iff piece pieces).mp runs
      refine (wordRuns_cons_iff piece _).mpr ⟨?_, inductionHypothesis behind⟩
      cases pieces with
      | nil => exact joins_indented piece nonempty
      | cons next others => exact joins

def Piece.terminal (piece : Piece) : Terminal :=
  .of piece.kind piece.value

theorem terminal_indented (blanks : Text) (pieces : List Piece) :
    (indented blanks pieces).map Piece.terminal = pieces.map Piece.terminal := by
  cases pieces <;> rfl

theorem spells_of_decomposes (decomposes : Decomposes text pieces last) :
    Spells text (pieces.map Piece.terminal) := by
  induction pieces generalizing text with
  | nil => exact .gap (congrArg Prod.snd decomposes.split_last.2)
  | cons piece pieces inductionHypothesis =>
      obtain ⟨first, rest, lexeme, behind, accepted, sameKind, sameValue, tail⟩ :=
        decomposes.split_first
      have spelled := Spells.lexeme (congrArg Prod.snd behind) accepted (inductionHypothesis tail)
      rwa [Lexeme.terminal, sameKind, sameValue] at spelled

/-- A text spells one list of terminals. -/
theorem Spells.unique {terminals terminals' : List Terminal} (spelled : Spells text terminals)
    (spelled' : Spells text terminals') : terminals' = terminals := by
  obtain ⟨tokens, scanned, mapped⟩ := scan_of_spells [] .origin 0 spelled
  obtain ⟨tokens', scanned', mapped'⟩ := scan_of_spells [] .origin 0 spelled'
  cases scanned.symm.trans scanned'
  exact List.append_cancel_right (mapped'.symm.trans mapped)

theorem Spells.decomposes {terminals : List Terminal} (spelled : Spells text terminals) :
    ∃ pieces last, Decomposes text pieces last ∧ terminals = pieces.map Piece.terminal := by
  obtain ⟨pieces, last, decomposes⟩ := decomposes_of_spells spelled
  exact ⟨pieces, last, decomposes, (spells_of_decomposes decomposes).unique spelled⟩

/-- A comment in a line stands at its end. -/
theorem hasComments_line (decomposes : Decomposes text pieces last) (inLine : Text.newline ∉ text) :
    hasComments text = true ↔ [Symbol.slash.byte, Symbol.slash.byte] <:+: last := by
  have inFront : ∀ gap ∈ pieces.map Piece.gap, ¬[Symbol.slash.byte, Symbol.slash.byte] <:+: gap := by
    intro gap member inside
    obtain ⟨piece, isPiece, rfl⟩ := List.mem_map.mp member
    have isBlank := decomposes.assembled.blanks_of_line inLine piece isPiece Symbol.slash.byte
      (inside.subset (.head _))
    exact absurd isBlank (by decide)
  rw [hasComments_iff, commented_assembled decomposes.assembled]
  constructor
  · rintro ⟨gap, member, inside⟩
    rcases List.mem_append.mp member with member | member
    · exact absurd inside (inFront gap member)
    · exact List.mem_singleton.mp member ▸ inside
  · exact fun inside => ⟨last, by simp, inside⟩

end Pieces

section Terminals

variable {line more : Text} {terminals terminals' : List Terminal}

theorem spells_parted (spelled : Spells line terminals) (inLine : Text.newline ∉ line)
    (uncommented : hasComments line = false) (spelled' : Spells more terminals') :
    Spells (line ++ Text.space :: more) (terminals ++ terminals') := by
  obtain ⟨pieces, last, decomposes, rfl⟩ := spelled.decomposes
  obtain ⟨pieces', last', decomposes', rfl⟩ := spelled'.decomposes
  have noComment : ¬[Symbol.slash.byte, Symbol.slash.byte] <:+: last := by
    rw [← hasComments_line decomposes inLine, uncommented]
    exact Bool.false_ne_true
  have blanks := decomposes.assembled.isGap_last.blanks_of_uncommented noComment
  obtain ⟨last'', assembled⟩ := decomposes.assembled.parted inLine blanks decomposes'.assembled
  have runs := wordRuns_parted decomposes.runs decomposes'.runs
    (List.append_ne_nil_of_right_ne_nil last (List.cons_ne_nil Text.space []))
  have whole := spells_of_decomposes ⟨assembled, runs⟩
  rwa [List.map_append, terminal_indented] at whole

theorem spells_swallowed (spelled : Spells line terminals) (commented : hasComments line = true)
    (inLine : Text.newline ∉ line ++ Text.space :: more) :
    Spells (line ++ Text.space :: more) terminals := by
  obtain ⟨pieces, last, decomposes, rfl⟩ := spelled.decomposes
  have isComment := (hasComments_line decomposes fun member => inLine (by simp [member])).mp commented
  exact spells_of_decomposes ⟨decomposes.assembled.swallowed inLine isComment, decomposes.runs⟩

/-- What lines spell is what the first of them spells and then the others. -/
theorem spells_of_newline (spelled : Spells (line ++ Text.newline :: more) terminals) :
    ∃ front behind, terminals = front ++ behind ∧ Spells line front ∧ Spells more behind := by
  obtain ⟨tokens, scanned, mapped⟩ := scan_of_spells [] .origin 0 spelled
  cases first : scan [] .origin 0 line with
  | error error =>
      rw [scan_newline_of_error more first] at scanned
      contradiction
  | ok tokens' =>
      obtain ⟨front, spelledFront, mappedFront⟩ := spells_of_scan first
      obtain ⟨opening, ending, rfl, sameFront, sameEnd⟩ := List.map_eq_append_iff.mp mappedFront
      obtain ⟨last, rfl, -⟩ : ∃ last, ending = [last] ∧ last.terminal = .endOfFile := by
        simpa [List.map_eq_cons_iff] using sameEnd
      rw [scan_newline_of_ok more first] at scanned
      cases second : scan [] ⟨last.span.stop.line + 1, 1⟩ (last.offset + 1) more with
      | error error =>
          rw [second] at scanned
          contradiction
      | ok others =>
          rw [second] at scanned
          cases scanned
          obtain ⟨behind, spelledBehind, mappedBehind⟩ := spells_of_scan second
          refine ⟨front, behind, ?_, spelledFront, spelledBehind⟩
          rw [List.map_append, sameFront, mappedBehind, ← List.append_assoc] at mapped
          exact (List.append_cancel_right mapped).symm

/-- A line is read up to its first comment, whatever newlines stood there. -/
theorem spells_oneLine {lines : List Text} (inLines : ∀ line ∈ lines, Text.newline ∉ line)
    (spelled : Spells (Text.join [Text.newline] (Text.uncommented lines)) terminals) :
    Spells (Text.join [Text.space] lines) terminals := by
  induction lines generalizing terminals with
  | nil => exact spelled
  | cons line lines inductionHypothesis =>
      obtain ⟨inLine, inOthers⟩ := List.forall_mem_cons.mp inLines
      cases lines with
      | nil => rwa [Text.uncommented_eq_self (by simp)] at spelled
      | cons next others =>
          have parting : Text.newline ∉ [Text.space] := by decide
          rw [Text.join_cons_cons, List.append_assoc, List.singleton_append]
          cases comment : hasComments line with
          | true =>
              rw [Text.uncommented, if_pos comment, Text.join_singleton] at spelled
              refine spells_swallowed spelled comment ?_
              rw [← List.singleton_append, ← List.append_assoc, ← Text.join_cons_cons]
              exact Text.not_mem_join parting _ inLines
          | false =>
              rw [Text.uncommented, comment, if_neg Bool.false_ne_true,
                Text.join_cons _ _ (Text.uncommented_ne_nil next others), List.append_assoc,
                List.singleton_append] at spelled
              obtain ⟨front, behind, rfl, spelledFront, spelledBehind⟩ := spells_of_newline spelled
              exact spells_parted spelledFront inLine comment (inductionHypothesis inOthers spelledBehind)

end Terminals

end Scanner

end Parlance
