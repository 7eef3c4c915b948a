import Parlance.Proofs.Incomplete
import Parlance.Proofs.Repl
import Parlance.Proofs.Run.Formatting
import Parlance.Proofs.Scanning.OneLine
import Parlance.Proofs.Text.Trim

namespace Parlance

open Scanner Parlance.Derivation

/-!
What the history keeps of a text, and what it does when it comes back. An entry is the
text on one line, so it is read up to the first comment. If no line but the last has one
the entry does what the text did; otherwise it breaks off, as the lines up to the comment
did when they were read.
-/

section Terminals

variable {file source other : Text} {terminals : List Terminal}

theorem parse_of_spells (spelled : Spells source terminals) (spelled' : Spells other terminals)
    {program : Program} (accepted : parse file source = .ok program) :
    ∃ again, parse file other = .ok again ∧ again.erased = program.erased := by
  obtain ⟨derivation, spells, valid, denoted⟩ := derivation_of_parse accepted
  cases spelled.unique spells
  obtain ⟨again, accepted', denoted'⟩ := parse_of_derivation file spelled' valid
  exact ⟨again, accepted', denoted'.trans denoted.symm⟩

theorem spells_of_parse {program : Program} (accepted : parse file source = .ok program) :
    ∃ terminals, Spells source terminals := by
  obtain ⟨derivation, spelled, -⟩ := derivation_of_parse accepted
  exact ⟨_, spelled⟩

/-- Lines that complete the one complete the other. -/
theorem incomplete_of_spells (spelled : Spells source terminals) (spelled' : Spells other terminals)
    (incomplete : ∃ error, parse file source = .error error ∧ error.incomplete = true) :
    ∃ error, parse file other = .error error ∧ error.incomplete = true := by
  obtain ⟨error, refused, incomplete⟩ := incomplete
  cases answered : parse file other with
  | ok program =>
      obtain ⟨again, accepted, -⟩ := parse_of_spells spelled' spelled answered
      cases refused.symm.trans accepted
  | error reason =>
      refine ⟨reason, rfl, ?_⟩
      cases final : reason.incomplete with
      | true => rfl
      | false =>
          obtain ⟨more, program, accepted⟩ := parse_newline_of_incomplete refused incomplete
          obtain ⟨whole, spelledWhole⟩ := spells_of_parse accepted
          obtain ⟨front, behind, rfl, spelledFront, spelledBehind⟩ := spells_of_newline spelledWhole
          cases spelled.unique spelledFront
          obtain ⟨again, accepted', -⟩ :=
            parse_of_spells spelledWhole (spells_newline spelled' spelledBehind) accepted
          exact absurd accepted' (parse_newline_of_error answered final more again)

end Terminals

namespace Text

/-- A byte that a program can start with, not a command. -/
def IsVisible (b : UInt8) : Prop :=
  IsSolid b ∧ b ≠ byte ':'

instance (b : UInt8) : Decidable (IsVisible b) :=
  inferInstanceAs (Decidable (_ ∧ _))

/-- Something visible stands behind blanks. -/
def Shows (text : Text) : Prop :=
  ∃ blanks first rest, text = blanks ++ first :: rest ∧ (∀ b ∈ blanks, isBlank b = true) ∧
    IsVisible first

theorem trimStart_blanks {blanks : Text} (areBlanks : ∀ b ∈ blanks, isBlank b = true) (rest : Text) :
    trimStart (blanks ++ rest) = trimStart rest := by
  induction blanks with
  | nil => rfl
  | cons b blanks inductionHypothesis =>
      obtain ⟨blank, areBlanks⟩ := List.forall_mem_cons.mp areBlanks
      have checked := forall_byte
        (fun b => !isBlank b || (b.toNat < 128 && isWhiteSpace (Char.ofNat b.toNat)))
        (by decide +kernel) b
      obtain ⟨small, white⟩ : b.toNat < 128 ∧ isWhiteSpace (Char.ofNat b.toNat) = true := by
        simpa [blank] using checked
      rw [List.cons_append, trimStart, trimStartFrom, sequence?_one _ small]
      dsimp only
      rw [if_pos white]
      exact inductionHypothesis areBlanks

theorem trim_blanks {text : Text} (areBlanks : ∀ b ∈ text, isBlank b = true) : trim text = [] := by
  have start := trimStart_blanks areBlanks []
  rw [List.append_nil] at start
  rw [trim, start]
  rfl

theorem Shows.trim {text : Text} (shows : Shows text) :
    ∃ first rest, Text.trim text = first :: rest ∧ first ≠ byte ':' := by
  obtain ⟨blanks, first, rest, rfl, areBlanks, solid, noColon⟩ := shows
  obtain ⟨others, trimmed⟩ := solid.trim rest
  refine ⟨first, others, ?_, noColon⟩
  rw [Text.trim, trimStart_blanks areBlanks]
  exact trimmed

theorem isVisible_of_isWord {b : UInt8} (word : isWord b = true) : IsVisible b := by
  have checked := forall_byte (fun b => !isWord b || decide (IsVisible b)) (by decide +kernel) b
  simpa [word] using checked

end Text

namespace Scanner

variable {text rest gap value : Text} {kind : Kind}

theorem Form.shows (form : Form rest kind value) : Text.Shows (value ++ rest) := by
  have shown {first : UInt8} {others : Text} (visible : Text.IsVisible first) :
      Text.Shows (first :: others) :=
    ⟨[], first, others, rfl, nofun, visible⟩
  cases isWord : isWordKind kind with
  | true =>
      have starts := (startsWith_form form).trans isWord
      cases whole : value ++ rest with
      | nil =>
          rw [whole] at starts
          contradiction
      | cons first others =>
          rw [whole] at starts
          exact shown (Text.isVisible_of_isWord starts)
  | false =>
      cases form with
      | mark symbol => exact shown (by cases symbol <;> decide)
      | string isRaw =>
          obtain ⟨inside, rfl, -⟩ := isRaw
          exact shown (by decide)
      | number | name | keyword => contradiction

theorem Gap.shows (isGap : Gap rest gap) (behind : rest = [] ∨ Text.Shows rest) :
    (∀ b ∈ gap ++ rest, Text.isBlank b = true) ∨ Text.Shows (gap ++ rest) := by
  induction isGap with
  | nil =>
      rcases behind with rfl | shows
      · exact .inl nofun
      · exact .inr shows
  | blank isBlank tail inductionHypothesis =>
      rcases inductionHypothesis with blanks | ⟨blanks, first, others, whole, areBlanks, plain⟩
      · exact .inl (List.forall_mem_cons.mpr ⟨isBlank, blanks⟩)
      · exact .inr ⟨_ :: blanks, first, others, congrArg (_ :: ·) whole,
          List.forall_mem_cons.mpr ⟨isBlank, areBlanks⟩, plain⟩
  | comment => exact .inr ⟨[], Symbol.slash.byte, _, rfl, nofun, by decide⟩

/-- A text that can be scanned is blank or shows something that is no command. -/
theorem Spells.shows {terminals : List Terminal} (spelled : Spells text terminals) :
    (∀ b ∈ text, Text.isBlank b = true) ∨ Text.Shows text := by
  obtain ⟨pieces, last, decomposes⟩ := decomposes_of_spells spelled
  cases decomposes.assembled with
  | done isGap =>
      have shows := isGap.shows (.inl rfl)
      rwa [List.append_nil] at shows
  | piece isGap form tail =>
      rw [List.append_assoc]
      exact isGap.shows (.inr form.shows)

end Scanner

namespace Repl

theorem historyEntry_eq (text : Text) :
    historyEntry text = Text.join [Text.space] (Text.splitOn Text.newline text) :=
  (Text.join_splitOn_eq_map Text.newline Text.space text).symm

theorem historyEntry_eq_self {text : Text} (inLine : Text.newline ∉ text) : historyEntry text = text := by
  rw [historyEntry_eq, Text.splitOn_of_not_mem _ inLine, Text.join_singleton]

theorem newline_not_mem_historyEntry (text : Text) : Text.newline ∉ historyEntry text := by
  rw [historyEntry_eq]
  exact Text.not_mem_join (by decide) _ (Text.not_mem_splitOn Text.newline text)

/-- An entry is read as the lines of the text up to the first with a comment. -/
theorem spells_historyEntry {text : Text} {terminals : List Terminal}
    (spelled : Spells
      (Text.join [Text.newline] (Text.uncommented (Text.splitOn Text.newline text))) terminals) :
    Spells (historyEntry text) terminals := by
  rw [historyEntry_eq]
  exact spells_oneLine (Text.not_mem_splitOn Text.newline text) spelled

theorem isCommand_of_spells {text : Text} {terminals : List Terminal}
    (spelled : Spells text terminals) : isCommand text = false := by
  rcases spelled.shows with blanks | shows
  · rw [isCommand, Text.trim_blanks blanks]
    rfl
  · obtain ⟨first, rest, trimmed, noColon⟩ := shows.trim
    rw [isCommand, trimmed, Text.hasPrefix, Bool.eq_false_iff, Ne, List.isPrefixOf_iff_prefix]
    exact fun starts => noColon (List.cons_prefix_cons.mp starts).1.symm

/-- An entry is blank only if the text is. -/
theorem trim_historyEntry {text : Text} {terminals : List Terminal}
    (spelled : Spells (historyEntry text) terminals) (solid : Text.trim text ≠ []) :
    Text.trim (historyEntry text) ≠ [] := by
  rcases spelled.shows with blanks | shows
  · refine absurd (Text.trim_blanks fun b member => ?_) solid
    have replaced := blanks _ (List.mem_map_of_mem member)
    split at replaced
    · next isNewline => rw [isNewline]; decide
    · exact replaced
  · obtain ⟨first, rest, trimmed, -⟩ := shows.trim
    rw [trimmed]
    exact List.cons_ne_nil first rest

/-- A text that is a program is run and remembered, unless it is blank. -/
theorem submit_of_parse (look : Look) (session : Session) {text : Text} {program : Program}
    (accepted : parse file text = .ok program) (solid : Text.trim text ≠ []) :
    submit look session text =
      ⟨(if look.remembers then [.remember (historyEntry text)] else []) ++
        (evaluate look session text).1, ⟨(evaluate look session text).2, []⟩, false⟩ := by
  obtain ⟨terminals, spelled⟩ := spells_of_parse accepted
  have plain : Text.hasPrefix (utf8 ":") (Text.trim text) = false := isCommand_of_spells spelled
  simp only [submit, List.isEmpty_iff, solid, plain, if_false, Bool.false_eq_true]

theorem evaluate_alike (look : Look) {session other : Session} {text entry : Text}
    {program again : Program} (accepted : parse file text = .ok program)
    (accepted' : parse file entry = .ok again) (same : again.erased = program.erased)
    (limits : other.limits = session.limits) (capacities : other.capacity = session.capacity)
    (environments : other.environment.erased = session.environment.erased) :
    (evaluate look other entry).1 = (evaluate look session text).1 ∧
      (evaluate look other entry).2.limits = (evaluate look session text).2.limits ∧
      (evaluate look other entry).2.environment.erased =
        (evaluate look session text).2.environment.erased := by
  have alike := Program.run_alike same environments
    ⟨session.limits, .unlimited, .live, session.capacity⟩
  unfold evaluate
  rw [session.run_of_parse _ _ accepted, other.run_of_parse _ _ accepted', limits, capacities]
  dsimp only
  refine ⟨?_, rfl, alike.environment⟩
  rw [alike.written]
  refine congrArg _ ?_
  cases ended : (again.run other.environment _).outcome with
  | ok completion => rw [alike.outcome_ok ended]
  | error halt =>
      obtain ⟨halt', ended', code, message⟩ := alike.outcome_error ended
      rw [ended']
      dsimp only
      cases shown : halt.diagnostic? with
      | none =>
          rw [shown, Option.map_none, Option.map_eq_none_iff] at code
          rw [code]
      | some diagnostic =>
          rw [shown] at code message
          obtain ⟨diagnostic', shown', sameCode⟩ := Option.map_eq_some_iff.mp code
          rw [shown'] at message
          have sameLine : errorLine look.pretty diagnostic = errorLine look.pretty diagnostic' := by
            simp only [errorLine, sameCode, Option.some.inj message]
          simp only [shown', Option.toList_some, List.map_cons, List.map_nil, sameLine]

/-- Lines that are a program are taken at once. -/
theorem submission_of_parse {pending : List Text} {line : Text} {program : Program}
    (accepted : parse file (joined (pending ++ [line])) = .ok program) :
    submission? pending (some (.line line)) = some (pending ++ [line]) := by
  have stops : continues pending line = false := by
    rw [continues, isIncomplete, accepted]
    simp
  rw [submission?, stops, if_neg Bool.false_ne_true]

/-- All lines but the last were pending. -/
theorem dropLast_of_submission {pending lines : List Text} {input : Option Input}
    (submits : submission? pending input = some lines) : lines.dropLast <+: pending := by
  cases input with
  | none =>
      rw [submission?] at submits
      split at submits
      · cases submits
      · cases submits
        exact List.dropLast_prefix _
  | some input =>
      cases input with
      | line line =>
          rw [submission?] at submits
          split at submits
          · cases submits
          · cases submits
            simp
      | abort | failure => cases submits

section Recall

variable {text : Text} {program : Program}

/-- Without a comment in front of another line, the entry is the same program. -/
theorem parse_historyEntry (accepted : parse file text = .ok program)
    (plain : ∀ line ∈ (Text.splitOn Text.newline text).dropLast, hasComments line = false) :
    ∃ again, parse file (historyEntry text) = .ok again ∧ again.erased = program.erased := by
  obtain ⟨terminals, spelled⟩ := spells_of_parse accepted
  refine parse_of_spells spelled (spells_historyEntry ?_) accepted
  rw [Text.uncommented_eq_self plain, Text.join_splitOn]
  exact spelled

/-- With one, it breaks off as the lines up to the comment do. -/
theorem open_historyEntry {lines : List Text} (inLines : ∀ line ∈ lines, Text.newline ∉ line)
    (solid : Text.trim (joined lines) ≠ []) (opens : Open (Text.uncommented lines)) :
    Open [historyEntry (joined lines)] := by
  have nonempty : lines ≠ [] := by
    rintro rfl
    exact solid rfl
  obtain ⟨error, refused, incomplete⟩ := opens.incomplete
  obtain ⟨more, whole, accepted⟩ := parse_newline_of_incomplete refused incomplete
  obtain ⟨all, spelledAll⟩ := spells_of_parse accepted
  obtain ⟨terminals, behind, rfl, spelled, -⟩ := spells_of_newline spelledAll
  have entry : Spells (historyEntry (joined lines)) terminals := by
    refine spells_historyEntry ?_
    rw [joined, Text.splitOn_join Text.newline nonempty inLines]
    exact spelled
  refine ⟨?_, fun line last => ?_, ?_⟩
  · rw [joined, Text.join_singleton]
    exact incomplete_of_spells spelled entry opens.incomplete
  · cases last
    exact trim_historyEntry entry solid
  · rw [joined, Text.join_singleton]
    exact isCommand_of_spells entry

end Recall

/-- Nothing is a program without a keyword, but for the empty one. -/
theorem keyword_of_parse {text : Text} {program : Program} {terminals : List Terminal}
    (accepted : parse file text = .ok program) (spelled : Spells text terminals)
    (nonempty : terminals ≠ []) : ∃ word, .keyword word ∈ terminals := by
  obtain ⟨derivation, spells, -⟩ := derivation_of_parse accepted
  cases spelled.unique spells
  cases derivation with
  | nil => exact absurd rfl nonempty
  | cons first others =>
      have keyword : ∃ word, .keyword word ∈ first.terminals := by
        cases first with
        | declaration | giveBack | print | formula => simp [Statement.terminals]
        | assignment => exact ⟨.terminator, by simp [Statement.terminals]⟩
        | conditional conditional terminated =>
            cases conditional
            simp [Statement.terminals, Conditional.terminals]
      obtain ⟨word, member⟩ := keyword
      exact ⟨word, List.mem_append_left _ member⟩

section Assignment

/-- An assignment that lacks its terminator. -/
def unterminated : List Terminal :=
  [.name (utf8 "x"), .mark .assign, .number (utf8 "1")]

theorem spells_unterminated {rest : Text} (ends : Text.startsWith Text.isWord rest = false)
    (isGap : Spells rest []) : Spells (utf8 "x = 1" ++ rest) unterminated :=
  @Spells.name _ _ (utf8 "x") (by decide +kernel) rfl <| .blank (b := Text.byte ' ') rfl <|
    .mark .assign (by simp) <| .blank (b := Text.byte ' ') rfl <|
      @Spells.number _ _ (utf8 "1") ⟨by decide +kernel, by decide +kernel⟩ ends isGap

variable {line : Text}

theorem parse_unterminated_ne_ok (spelled : Spells line unterminated) (program : Program) :
    parse file line ≠ .ok program := by
  intro accepted
  obtain ⟨word, member⟩ := keyword_of_parse accepted spelled (by decide)
  simp [unterminated] at member

theorem parse_terminated (spelled : Spells line unterminated) :
    ∃ program, parse file (joined [line, utf8 "IM"]) = .ok program := by
  let formula (primary : Formula 0) : Formula comparison :=
    .chain (.chain (.chain primary .done) .done) .done
  let derivation : Statements :=
    .cons (.assignment (formula (.reference (utf8 "x"))) (formula (.number (utf8 "1")))) .nil
  have valid : derivation.Valid := by
    refine ⟨?_, ⟨trivial, trivial⟩, by decide +kernel⟩
    simp [derivation, formula, Statements.Greedy, Statement.Greedy, Formula.Greedy, Links.Greedy,
      Links.terminals, operators, Operator.sign]
  have whole : Spells (joined [line, utf8 "IM"]) (unterminated ++ [.keyword .terminator]) :=
    spells_newline spelled (.keyword .terminator rfl .nil)
  obtain ⟨program, accepted, -⟩ := @parse_of_derivation file _ derivation whole valid
  exact ⟨program, accepted⟩

theorem unfinished_of_unterminated (spelled : Spells line unterminated)
    (solid : Text.trim line ≠ []) : Unfinished [line] := by
  have single : joined [line] = line := Text.join_singleton _ line
  have incomplete : ∃ error, parse file line = .error error ∧ error.incomplete = true := by
    obtain ⟨program, accepted⟩ := parse_terminated spelled
    cases answered : parse file line with
    | ok program => exact absurd answered (parse_unterminated_ne_ok spelled program)
    | error error =>
        refine ⟨error, rfl, Decidable.byContradiction fun final => ?_⟩
        exact parse_newline_of_error answered (Bool.eq_false_iff.mpr final) _ program accepted
  rintro opening ⟨rest, whole⟩ nonempty
  obtain ⟨rfl, -⟩ : opening = [line] ∧ rest = [] := by
    rcases List.append_eq_singleton_iff.mp whole with ⟨empty, -⟩ | both
    · exact absurd empty nonempty
    · exact both
  refine ⟨single.symm ▸ incomplete, fun last isLast => ?_, single.symm ▸ isCommand_of_spells spelled⟩
  cases isLast
  exact solid

end Assignment

/-- What the history keeps of a text that is a program, and what it does when it comes back. The
entry is one line. If no line but the last has a comment, it is the same program but for places, and
in a session that differs at most in places it shows what the text showed and leaves behind what the
text left behind. Otherwise the entry breaks off at the comment, and nothing is run. -/
theorem recall_replays (look : Look) (session : Session) {pending lines : List Text}
    {input : Option Input} {program : Program} (submits : submission? pending input = some lines)
    (accepted : parse file (joined lines) = .ok program) (solid : Text.trim (joined lines) ≠ []) :
    let text := joined lines
    let entry := historyEntry text
    let step := advance look ⟨session, pending⟩ input
    Text.newline ∉ entry ∧
    step.output = (if look.remembers then [.remember entry] else []) ++ (evaluate look session text).1 ∧
    ((∀ line ∈ (Text.splitOn Text.newline text).dropLast, hasComments line = false) →
      (∃ again, parse file entry = .ok again ∧ again.erased = program.erased) ∧
      ∀ other : Session, other.limits = session.limits → other.capacity = session.capacity →
        other.environment.erased = session.environment.erased →
        let recalled := advance look ⟨other, []⟩ (some (.line entry))
        recalled.output = step.output ∧ recalled.ended = step.ended ∧
          recalled.state.pending = step.state.pending ∧
          recalled.state.session.limits = step.state.session.limits ∧
          recalled.state.session.environment.erased = step.state.session.environment.erased) ∧
    (Unfinished pending → (∀ line ∈ lines, Text.newline ∉ line) →
      (∃ line ∈ lines.dropLast, hasComments line = true) →
      isIncomplete entry = true ∧ ∀ other : Session,
        advance look ⟨other, []⟩ (some (.line entry)) = ⟨[], ⟨other, [entry]⟩, false⟩) := by
  intro text entry step
  have inLine : Text.newline ∉ entry := newline_not_mem_historyEntry text
  have stepped : step = submit look session text := advance_of_submission submits
  rw [submit_of_parse look session accepted solid] at stepped
  refine ⟨inLine, congrArg Step.output stepped, fun plain => ?_, fun unfinished inLines commented => ?_⟩
  · obtain ⟨again, accepted', same⟩ := parse_historyEntry accepted plain
    refine ⟨⟨again, accepted', same⟩, fun other limits capacities environments => ?_⟩
    obtain ⟨terminals, spelled⟩ := spells_of_parse accepted'
    obtain ⟨shown, limits', environments'⟩ :=
      evaluate_alike look accepted accepted' same limits capacities environments
    intro recalled
    have single : joined [entry] = entry := Text.join_singleton _ entry
    have submits' : submission? [] (some (.line entry)) = some [entry] :=
      submission_of_parse ((congrArg (parse file) single).trans accepted')
    have recalledStep : recalled = submit look other entry :=
      (advance_of_submission submits').trans (congrArg (submit look other) single)
    rw [submit_of_parse look other accepted' (trim_historyEntry spelled solid),
      historyEntry_eq_self inLine, shown] at recalledStep
    rw [stepped, recalledStep]
    exact ⟨rfl, rfl, rfl, limits', environments'⟩
  · have inPending := (Text.uncommented_prefix commented).trans (dropLast_of_submission submits)
    have opens : Open (Text.uncommented lines) := by
      refine unfinished _ inPending fun empty => ?_
      cases lines with
      | nil => exact solid rfl
      | cons line others => exact Text.uncommented_ne_nil line others empty
    have entryOpens := open_historyEntry inLines solid opens
    refine ⟨?_, fun other => if_pos (continues_iff.mpr entryOpens)⟩
    have incomplete := entryOpens.incomplete
    rw [joined, Text.join_singleton] at incomplete
    exact (isIncomplete_iff entry).mpr incomplete

/-- An assignment over two lines, without and with a comment behind the first. The entry of the one
does what the lines did, that of the other waits for more. -/
theorem recall_replays_assignment :
    let plain := utf8 "x = 1"
    let commented := utf8 "x = 1 // one"
    let last := some (Input.line (utf8 "IM"))
    let look : Look := ⟨[], false, true⟩
    let session : Session := ⟨.empty, ⟨8, 100, 0⟩, 50⟩
    (submission? [plain] last = some [plain, utf8 "IM"] ∧
      (∃ program, parse file (joined [plain, utf8 "IM"]) = .ok program) ∧
      Text.trim (joined [plain, utf8 "IM"]) ≠ [] ∧
      (advance look ⟨session, []⟩ (some (.line (utf8 "x = 1 IM")))).output =
        (advance look ⟨session, [plain]⟩ last).output) ∧
    submission? [commented] last = some [commented, utf8 "IM"] ∧
      (∃ program, parse file (joined [commented, utf8 "IM"]) = .ok program) ∧
      Text.trim (joined [commented, utf8 "IM"]) ≠ [] ∧ Unfinished [commented] ∧
      advance look ⟨session, []⟩ (some (.line (utf8 "x = 1 // one IM"))) =
        ⟨[], ⟨session, [utf8 "x = 1 // one IM"]⟩, false⟩ := by
  intro plain commented last look session
  have spelled : Spells plain unterminated := spells_unterminated rfl .nil
  have spelled' : Spells commented unterminated :=
    @spells_unterminated (utf8 " // one") rfl (.gap (by decide +kernel))
  obtain ⟨program, accepted⟩ := parse_terminated spelled
  obtain ⟨program', accepted'⟩ := parse_terminated spelled'
  have submits := @submission_of_parse [plain] (utf8 "IM") _ accepted
  have submits' := @submission_of_parse [commented] (utf8 "IM") _ accepted'
  have solid : Text.trim (joined [plain, utf8 "IM"]) ≠ [] := by decide +kernel
  have solid' : Text.trim (joined [commented, utf8 "IM"]) ≠ [] := by decide +kernel
  have unfinished := unfinished_of_unterminated spelled' (by decide +kernel)
  obtain ⟨-, -, replays, -⟩ := recall_replays look session submits accepted solid
  obtain ⟨-, -, -, waits⟩ := recall_replays look session submits' accepted' solid'
  obtain ⟨-, alike⟩ := replays (by decide +kernel)
  obtain ⟨-, pends⟩ := waits unfinished (by decide +kernel) (by decide +kernel)
  exact ⟨⟨submits, ⟨program, accepted⟩, solid, (alike session rfl rfl rfl).1⟩, submits',
    ⟨program', accepted'⟩, solid', unfinished, pends session⟩

/-- The text with the comment is a program, its entry is none. -/
theorem recall_commented_refused :
    let before := utf8 "x = 1 // one"
    let text := joined [before, utf8 "IM"]
    submission? [before] (some (.line (utf8 "IM"))) = some [before, utf8 "IM"] ∧
    Text.trim text ≠ [] ∧ (∃ program, parse file text = .ok program) ∧
    historyEntry text = utf8 "x = 1 // one IM" ∧
    ∀ program, parse file (historyEntry text) ≠ .ok program := by
  intro before text
  have spelled : Spells before unterminated :=
    @spells_unterminated (utf8 " // one") rfl (.gap (by decide +kernel))
  have spelled' : Spells (historyEntry text) unterminated :=
    @spells_unterminated (utf8 " // one IM") rfl (.gap (by decide +kernel))
  obtain ⟨program, accepted⟩ := parse_terminated spelled
  exact ⟨@submission_of_parse [before] (utf8 "IM") _ accepted, by decide +kernel, ⟨program, accepted⟩,
    by decide +kernel, parse_unterminated_ne_ok spelled'⟩

end Repl

end Parlance
