import Parlance.Proofs.Scanning.Lexical
import Parlance.Proofs.Scanning.Lines

namespace Parlance

/-!
Positions are right. The scanner moves its position on from lexeme to lexeme, but
the position it gives to a token is a function of the bytes in front of it: a line
for every newline, and a column for every character of the last line. The same
holds for the place of a fault, which is the first byte of what cannot be read.
-/

namespace Text

/-- What stands behind the last newline. -/
def lastLine (passed : Text) : Text :=
  (passed.reverse.takeWhile (· != newline)).reverse

theorem newline_notMem_lastLine (passed : Text) : newline ∉ lastLine passed := by
  intro member
  have inside := List.all_eq_true.mp List.all_takeWhile _ (List.mem_reverse.mp member)
  simp at inside

theorem eq_lastLine_or (passed : Text) :
    passed = lastLine passed ∨ ∃ front, passed = front ++ newline :: lastLine passed := by
  have whole := congrArg List.reverse
    (List.takeWhile_append_dropWhile (p := (· != newline)) (l := passed.reverse))
  rw [List.reverse_append, List.reverse_reverse, ← lastLine] at whole
  have refused := Scanner.startsWith_dropWhile (· != newline) passed.reverse
  cases front : passed.reverse.dropWhile (· != newline) with
  | nil =>
      rw [front] at whole
      exact .inl whole.symm
  | cons b others =>
      have isNewline : b = newline := by simpa [front, startsWith] using refused
      rw [front, isNewline, List.reverse_cons, List.append_assoc] at whole
      exact .inr ⟨_, whole.symm⟩

end Text

namespace Position

/-- The position behind a text that starts at the origin: a line for every newline,
and a column for every character behind the last one. -/
def after (passed : Text) : Position :=
  ⟨1 + passed.count Text.newline, 1 + (Text.chars (Text.lastLine passed)).length⟩

theorem advanceFrom_of_notMem (position : Position) (pending : Nat) {passed : Text}
    (inLine : Text.newline ∉ passed) :
    position.advanceFrom pending passed =
      ⟨position.line, position.column + (Text.charsFrom pending passed).length⟩ := by
  induction passed generalizing position pending with
  | nil => cases pending <;> simp [advanceFrom, Text.charsFrom]
  | cons b rest inductionHypothesis =>
      obtain ⟨differs, inLine⟩ := List.ne_and_not_mem_of_not_mem_cons inLine
      cases pending with
      | succ pending => exact inductionHypothesis position pending inLine
      | zero =>
          rw [advanceFrom, if_neg differs.symm, inductionHypothesis _ _ inLine, Text.charsFrom,
            Text.charWidth]
          cases Text.sequence? (b :: rest) with
          | none =>
              simp only [List.length_cons, Nat.sub_self]
              congr 1
              omega
          | some sequence =>
              simp only [List.length_cons]
              congr 1
              omega

theorem advance_origin (passed : Text) : origin.advance passed = after passed := by
  have line := origin.line_advance passed
  have inLine := Text.newline_notMem_lastLine passed
  suffices column : (origin.advance passed).column = (after passed).column by
    cases found : origin.advance passed with
    | mk line' column' =>
        rw [found] at line column
        rw [after, Position.mk.injEq]
        exact ⟨line, column⟩
  rcases Text.eq_lastLine_or passed with whole | ⟨front, whole⟩
  · rw [← whole] at inLine
    rw [advance, advanceFrom_of_notMem origin 0 inLine, after, ← whole]
    rfl
  · have behind := origin.advance_newline front (Text.lastLine passed)
    rw [← whole, advance.eq_def _ (Text.lastLine passed), advanceFrom_of_notMem _ 0 inLine] at behind
    rw [behind]
    rfl

/-- No character reaches over a place where another one can start. -/
theorem advance_after (front : Text) {rest : Text}
    (starts : Text.startsWith Text.isContinuation rest = false) :
    (after front).advance rest = after (front ++ rest) := by
  rw [← advance_origin, ← advance_origin, advance_append origin front starts]

end Position

namespace Scanner

section Starts

theorem isContinuation_of_isWord {b : UInt8} (word : Text.isWord b = true) :
    Text.isContinuation b = false := by
  have checked := Text.forall_byte (fun b => !Text.isWord b || !Text.isContinuation b)
    (by decide +kernel) b
  simpa [word] using checked

theorem isContinuation_of_isBlank {b : UInt8} (blank : Text.isBlank b = true) :
    Text.isContinuation b = false := by
  have checked := Text.forall_byte (fun b => !Text.isBlank b || !Text.isContinuation b)
    (by decide +kernel) b
  simpa [blank] using checked

variable {rest gap value : Text} {kind : Kind}

theorem startsWith_continuation_gap (isGap : Gap rest gap) :
    Text.startsWith Text.isContinuation gap = false := by
  cases isGap with
  | nil => rfl
  | blank isBlank tail => exact isContinuation_of_isBlank isBlank
  | comment inside ends tail => rfl

/-- Words start with an ASCII byte, and so do marks and strings. -/
theorem startsWith_continuation_form (form : Form rest kind value) :
    Text.startsWith Text.isContinuation value = false := by
  cases isWord : isWordKind kind with
  | true =>
      cases value with
      | nil => rfl
      | cons first others => exact isContinuation_of_isWord ((startsWith_form form).trans isWord)
  | false =>
      cases form with
      | mark symbol => cases symbol <;> rfl
      | string isRaw =>
          obtain ⟨inside, rfl, -⟩ := isRaw
          rfl
      | number | name | keyword => contradiction

end Starts

end Scanner

/-- The token is what stands at its offset in the source, and its span is told by the
bytes in front of it and in front of its end. -/
def Token.Stands (file source : Text) (token : Token) : Prop :=
  ∃ before behind, source = before ++ token.value ++ behind ∧ before.length = token.offset ∧
    token.span = ⟨file, .after before, .after (before ++ token.value)⟩

namespace Scanner

/-- What is split off behind `front` is a gap and a lexeme, and both start a character. -/
theorem advance_gap (front text : Text) :
    (Position.after front).advance (splitGap false text).1 =
      .after (front ++ (splitGap false text).1) :=
  Position.advance_after front (startsWith_continuation_gap (gap_of_splitGap false text).1)

theorem advance_piece (front : Text) {text rest : Text} {first : UInt8} {lexeme : Lexeme}
    (behind : (splitGap false text).2 = first :: rest) (accepted : split first rest = .ok lexeme) :
    ((Position.after front).advance (splitGap false text).1).advance lexeme.value =
      .after (front ++ (splitGap false text).1 ++ lexeme.value) := by
  have solid := (gap_of_splitGap false text).2
  rw [behind] at solid
  rw [advance_gap]
  exact Position.advance_after _ (startsWith_continuation_form (form_of_split solid accepted).1)

/-- A scan that starts behind `front` puts every token where it stands. -/
theorem scan_stands {file : Text} {position : Position} {offset : Nat} {text : Text}
    {tokens : List Token} (scanned : scan file position offset text = .ok tokens) (front : Text)
    (place : position = .after front) (passed : offset = front.length) :
    ∀ token ∈ tokens, token.Stands file (front ++ text) := by
  replace scanned := scans_of_scan tokens scanned
  induction scanned generalizing front with
  | @gap position offset text behind =>
      subst place passed
      have whole : (splitGap false text).1 = text := by
        simpa [behind] using splitGap_append false text
      rw [advance_gap, whole]
      exact List.forall_mem_singleton.mpr ⟨front ++ text, [], by simp, by simp, by simp⟩
  | @lexeme position offset text rest first lexeme others behind accepted tail inductionHypothesis =>
      subst place passed
      have whole := parted behind accepted
      have following := inductionHypothesis _ (advance_piece front behind accepted)
        (by simp only [List.length_append])
      rw [List.append_assoc, List.append_assoc, ← List.append_assoc (splitGap false text).1, ← whole]
        at following
      refine List.forall_mem_cons.mpr
        ⟨⟨front ++ (splitGap false text).1, lexeme.rest, ?_, ?_, ?_⟩, following⟩
      · simp only [Lexeme.token, List.append_assoc]
        rw [← List.append_assoc (splitGap false text).1, ← whole]
      · simp only [Lexeme.token, List.length_append]
      · simp only [Lexeme.token]
        rw [advance_piece front behind accepted, advance_gap]

/-- The word that a fault shows. -/
def Fault.word? : Fault → Option Text
  | .unknownKeyword word | .mixedCase word | .leadingDigit word => some word
  | _ => none

/-- What a fault is about, between the text before and the text behind it: a whole run
of word bytes, a quote with the rest of its line, or one character. -/
inductive Culprit (before behind : Text) : Fault → Text → Prop
  | word {fault : Fault} {word : Text} (shown : fault.word? = some word)
      (inside : ∀ b ∈ word, Text.isWord b = true)
      (starts : Text.startsWith Text.isWord before.reverse = false)
      (ends : Text.startsWith Text.isWord behind = false) : Culprit before behind fault word
  | string {inside : Text} (inLine : ∀ b ∈ inside, isStringByte b = true)
      (ends : ∀ b ∈ behind.head?, b = Text.newline) :
      Culprit before behind .unterminatedString (Text.quote :: inside)
  | character {character : Text} (whole : Text.firstChar (character ++ behind) = character) :
      Culprit before behind
        (.unexpected
          (if Text.isWellFormed character then character else Text.encode Text.replacement))
        character

section Refusal

variable {before rest : Text} {first : UInt8} {fault : Fault}

/-- Numbers, names and keywords are refused for the whole word that they start. -/
theorem culprit_of_word {splitWord : Text → Except Fault Lexeme}
    (stops : ∀ {behind}, Text.startsWith Text.isWord behind = false → ∀ text,
      splitWord (text ++ behind) = (splitWord text).map (.followedBy behind))
    (shows : ∀ {text fault}, splitWord text = .error fault →
      fault.word? = some (text.takeWhile Text.isWord))
    (isWord : Text.isWord first = true)
    (starts : Text.startsWith Text.isWord before.reverse = false)
    (refused : splitWord (first :: rest) = .error fault) :
    ∃ others behind, rest = others ++ behind ∧ splitWord (first :: others) = .error fault ∧
      Culprit before behind fault (first :: others) := by
  have ends := startsWith_dropWhile Text.isWord rest
  have whole : rest = rest.takeWhile Text.isWord ++ rest.dropWhile Text.isWord :=
    List.takeWhile_append_dropWhile.symm
  have shown := shows refused
  rw [List.takeWhile_cons, if_pos isWord] at shown
  refine ⟨_, _, whole, ?_, .word shown ?_ starts ends⟩
  · rw [whole, ← List.cons_append, stops ends] at refused
    cases answer : splitWord (first :: rest.takeWhile Text.isWord) with
    | ok lexeme => rw [answer] at refused; contradiction
    | error other => rw [answer] at refused; exact refused
  · exact List.forall_mem_cons.mpr ⟨isWord, List.all_eq_true.mp List.all_takeWhile⟩

theorem splitNumber_shows {text : Text} (refused : splitNumber text = .error fault) :
    fault.word? = some (text.takeWhile Text.isWord) := by
  unfold splitNumber at refused
  split at refused
  · contradiction
  · cases refused
    rfl

theorem splitName_shows {text : Text} (refused : splitName text = .error fault) :
    fault.word? = some (text.takeWhile Text.isWord) := by
  unfold splitName at refused
  split at refused
  · contradiction
  · cases refused
    rfl

theorem splitKeyword_shows {text : Text} (refused : splitKeyword text = .error fault) :
    fault.word? = some (text.takeWhile Text.isWord) := by
  simp only [splitKeyword] at refused
  split at refused
  · cases refused
    rfl
  · split at refused
    · contradiction
    · cases refused
      rfl

/-- A string is refused for the rest of its line, in which it does not end. -/
theorem culprit_of_string (refused : splitString rest = .error fault) :
    ∃ inside behind, rest = inside ++ behind ∧ splitString inside = .error fault ∧
      Culprit before behind fault (Text.quote :: inside) := by
  have inLine : ∀ b ∈ rest.takeWhile isStringByte, isStringByte b = true :=
    List.all_eq_true.mp List.all_takeWhile
  have stops := startsWith_dropWhile isStringByte rest
  have isOpen : fault = .unterminatedString ∧
      ∀ b ∈ (rest.dropWhile isStringByte).head?, b = Text.newline := by
    unfold splitString at refused
    split at refused
    · next nothing =>
        cases refused
        exact ⟨rfl, by simp [nothing]⟩
    · next b behind found =>
        split at refused
        · contradiction
        · next notQuote =>
            cases refused
            refine ⟨rfl, ?_⟩
            simpa [found, Text.startsWith, isStringByte, notQuote] using stops
  obtain ⟨rfl, ends⟩ := isOpen
  refine ⟨_, _, List.takeWhile_append_dropWhile.symm, ?_, .string inLine ends⟩
  have nothing := dropWhile_run inLine (by rfl : Text.startsWith isStringByte [] = false)
  rw [List.append_nil] at nothing
  rw [splitString, nothing]

theorem culprit_of_character (first : UInt8) (rest : Text) :
    ∃ others behind, rest = others ++ behind ∧
      Text.firstChar (first :: others) = Text.firstChar (first :: rest) ∧
      Text.firstChar (first :: rest) = first :: others := by
  obtain ⟨width, same⟩ := Nat.exists_eq_add_of_lt (Text.charWidth_pos (first :: rest))
  rw [Nat.zero_add] at same
  have whole : Text.firstChar (first :: rest) = first :: rest.take width := by
    rw [Text.firstChar, same, List.take_succ_cons]
  refine ⟨_, _, (List.take_append_drop width rest).symm, ?_, whole⟩
  rw [← whole, Text.firstChar_firstChar (List.cons_ne_nil _ _)]

/-- What is refused has a culprit at its front, which is refused for the same reason
when nothing stands behind it. -/
theorem culprit_of_refused (refused : split first rest = .error fault)
    (starts : Text.isWord first = true → Text.startsWith Text.isWord before.reverse = false) :
    ∃ others behind, rest = others ++ behind ∧ split first others = .error fault ∧
      Culprit before behind fault (first :: others) := by
  unfold split at refused ⊢
  cases mark : Symbol.ofByte? first with
  | some symbol => simp [mark] at refused
  | none =>
      simp only [mark] at refused ⊢
      by_cases digit : Text.isDigit first = true
      · simp only [if_pos digit] at refused ⊢
        have isWord := isWord_of_isDigit digit
        exact culprit_of_word splitNumber_stop splitNumber_shows isWord (starts isWord) refused
      by_cases opening : first = Text.quote
      · simp only [if_neg digit, if_pos opening] at refused ⊢
        exact opening ▸ culprit_of_string refused
      by_cases lower : Text.isLower first = true
      · simp only [if_neg digit, if_neg opening, if_pos lower] at refused ⊢
        have isWord := isWord_of_isLower lower
        exact culprit_of_word splitName_stop splitName_shows isWord (starts isWord) refused
      by_cases upper : Text.isUpper first = true
      · simp only [if_neg digit, if_neg opening, if_neg lower, if_pos upper] at refused ⊢
        have isWord := isWord_of_isUpper upper
        exact culprit_of_word splitKeyword_stop splitKeyword_shows isWord (starts isWord) refused
      · simp only [if_neg digit, if_neg opening, if_neg lower, if_neg upper] at refused ⊢
        obtain ⟨others, behind, rfl, same, whole⟩ := culprit_of_character first rest
        cases refused
        refine ⟨others, behind, rfl, by rw [same], ?_⟩
        rw [whole]
        exact .character whole

/-- Where a keyword is ahead, it is split off. -/
theorem split_of_keywordAhead (ahead : keywordAhead (first :: rest) = true) :
    ∃ lexeme, split first rest = .ok lexeme := by
  have upper : Text.isUpper first = true := startsWith_of_keywordAhead ahead
  simp only [keywordAhead, Bool.and_eq_true, Bool.not_eq_true'] at ahead
  obtain ⟨ends, isKeyword⟩ := ahead
  obtain ⟨word, found⟩ := Option.isSome_iff_exists.mp isKeyword
  have letters := Keyword.spelling_of_ofSpelling? found
  rw [List.takeWhile_cons, if_pos upper] at letters
  rw [List.dropWhile_cons, if_pos upper] at ends
  have accepted := split_keyword word letters ends
  rw [List.takeWhile_append_dropWhile] at accepted
  exact ⟨_, accepted⟩

end Refusal

section Before

variable {front rest gap value : Text} {kind : Kind}

/-- A gap that ends in front of a lexeme ends with a blank. -/
theorem startsWith_reverse_gap (isGap : Gap rest gap) (nonempty : gap ≠ [])
    (solid : ∃ b ∈ rest.head?, b ≠ Text.newline) (front : Text) :
    Text.startsWith Text.isWord (front ++ gap).reverse = false := by
  induction isGap generalizing front with
  | nil => contradiction
  | @blank b gap isBlank tail inductionHypothesis =>
      by_cases last : gap = []
      · rw [last, List.reverse_append]
        cases isWord : Text.isWord b with
        | false => exact isWord
        | true => rw [isBlank_eq_false_of_isWord isWord] at isBlank; contradiction
      · simpa using inductionHypothesis last (front ++ [b])
  | @comment body gap inside ends tail inductionHypothesis =>
      by_cases last : gap = []
      · obtain ⟨b, member, noNewline⟩ := solid
        rw [last, List.nil_append] at ends
        exact absurd (ends b member) noNewline
      · simpa using inductionHypothesis last
          (front ++ Symbol.slash.byte :: Symbol.slash.byte :: body)

/-- Marks and strings do not end with a word byte. -/
theorem startsWith_reverse_form (form : Form rest kind value) (noWord : isWordKind kind = false)
    (front : Text) : Text.startsWith Text.isWord (front ++ value).reverse = false := by
  rw [List.reverse_append]
  cases form with
  | mark symbol => cases symbol <;> rfl
  | string isRaw =>
      obtain ⟨inside, rfl, -⟩ := isRaw
      rw [Text.quoted, List.reverse_append]
      rfl
  | number | name | keyword => contradiction

/-- A word ends in front of what is split off next. -/
theorem wordEnds_of_ended (ended : Ended rest kind) (isWord : isWordKind kind = true) :
    wordEnds rest = true := by
  cases kind with
  | number | name => exact ended
  | keyword word => exact wordEnds_of_startsWith ended
  | _ => contradiction

end Before

/-- The scan stands between words: what was passed last is no part of the next word. -/
def Between (front text : Text) : Prop :=
  Text.startsWith Text.isWord front.reverse = true → wordEnds text = true

theorem Between.behind (front : Text) {text rest : Text} {first : UInt8} {lexeme : Lexeme}
    (behind : (splitGap false text).2 = first :: rest) (accepted : split first rest = .ok lexeme) :
    Between (front ++ (splitGap false text).1 ++ lexeme.value) lexeme.rest := by
  have solid := (gap_of_splitGap false text).2
  rw [behind] at solid
  obtain ⟨form, ended⟩ := form_of_split solid accepted
  intro inside
  cases isWord : isWordKind lexeme.kind with
  | true => exact wordEnds_of_ended ended isWord
  | false => rw [startsWith_reverse_form form isWord] at inside; contradiction

/-- No word is refused that goes on with one in front of it. -/
theorem Between.starts {front text rest : Text} {first : UInt8} {fault : Fault}
    (between : Between front text) (behind : (splitGap false text).2 = first :: rest)
    (refused : split first rest = .error fault) (isWord : Text.isWord first = true) :
    Text.startsWith Text.isWord (front ++ (splitGap false text).1).reverse = false := by
  obtain ⟨isGap, -⟩ := gap_of_splitGap false text
  have whole := splitGap_append false text
  rw [behind] at isGap whole
  by_cases empty : (splitGap false text).1 = []
  · rw [empty, List.nil_append] at whole
    rw [empty, List.append_nil]
    cases inside : Text.startsWith Text.isWord front.reverse with
    | false => rfl
    | true =>
        have ends := between inside
        have goesOn : Text.startsWith Text.isWord text = true := by rw [← whole]; exact isWord
        simp only [wordEnds, goesOn, Bool.not_true, Bool.false_or] at ends
        rw [← whole] at ends
        obtain ⟨lexeme, accepted⟩ := split_of_keywordAhead ends
        rw [accepted] at refused
        contradiction
  · refine startsWith_reverse_gap isGap empty ⟨first, rfl, ?_⟩ front
    rintro rfl
    exact absurd isWord (by decide)

/-- A scan that is refused behind `front` has a culprit, and all in front of the culprit
is put together from gaps and lexemes. -/
theorem scan_culprit (file : Text) (position : Position) (offset : Nat) (text : Text) :
    ∀ front error, position = .after front → Between front text →
      scan file position offset text = .error error →
      ∃ before culprit behind, text = before ++ culprit ++ behind ∧
        (∃ pieces last, Decomposes before pieces last) ∧
        scan file .origin 0 culprit = .error ⟨file, .origin, error.fault⟩ ∧
        Culprit (front ++ before) behind error.fault culprit ∧
        error = ⟨file, .after (front ++ before), error.fault⟩ := by
  induction position, offset, text using scan.induct file with
  | case1 position offset text behind =>
      intro front error _ _ refused
      rw [scan_gap _ _ _ behind] at refused
      contradiction
  | case2 position offset text first rest behind fault refused =>
      rintro front error rfl between answered
      rw [scan_refused _ _ _ behind refused, advance_gap] at answered
      cases answered
      obtain ⟨isGap, solid⟩ := gap_of_splitGap false text
      have whole := splitGap_append false text
      rw [behind] at isGap whole
      obtain ⟨others, more, rfl, alone, culprit⟩ :=
        culprit_of_refused refused (between.starts behind refused)
      have last : Gap [] (splitGap false text).1 := Gap.front isGap
      have split : splitGap false (first :: others) = ([], first :: others) :=
        splitGap_of_gap .nil (Solid.front (behind ▸ solid))
      refine ⟨_, first :: others, more, whole.symm.trans (by simp),
        ⟨[], _, .done last, List.forall_mem_nil _⟩, ?_, culprit, rfl⟩
      rw [scan_refused file .origin 0 (congrArg Prod.snd split) alone, split]
      rfl
  | case3 position offset text gap start first rest behind lexeme accepted stop inductionHypothesis =>
      rintro front error rfl between answered
      rw [scan_lexeme _ _ _ behind accepted] at answered
      dsimp only at answered
      cases tail : scan file _ _ lexeme.rest with
      | ok others =>
          rw [tail] at answered
          contradiction
      | error reason =>
          rw [tail] at answered
          cases answered
          obtain ⟨before, culprit, more, whole, ⟨pieces, last, decomposes⟩, alone, isCulprit, place⟩ :=
            inductionHypothesis _ _ (advance_piece front behind accepted)
              (.behind front behind accepted) tail
          have parts : front ++ gap ++ lexeme.value ++ before =
              front ++ (gap ++ lexeme.value ++ before) := by
            simp only [List.append_assoc]
          rw [parts] at isCulprit place
          rw [List.append_assoc] at whole
          refine ⟨gap ++ lexeme.value ++ before, culprit, more, ?_,
            ⟨_, _, decomposes.of_split_front behind accepted whole⟩, alone, isCulprit, place⟩
          refine (parted behind accepted).trans ?_
          simp only [whole, List.append_assoc, gap]

end Scanner

open Scanner

/-- Every token stands where its offset and its span say. A source without tokens splits
into a text that has some and what follows it, which starts with the culprit, at the
place where the error starts. -/
theorem tokenize_positions (file source : Text) :
    (∀ tokens, tokenize file source = .ok tokens → ∀ token ∈ tokens, token.Stands file source) ∧
    ∀ error, tokenize file source = .error error →
      ∃ before culprit behind, source = before ++ culprit ++ behind ∧
        (∃ tokens, tokenize file before = .ok tokens) ∧
        tokenize file culprit = .error ⟨file, .origin, error.fault⟩ ∧
        Culprit before behind error.fault culprit ∧
        error.span.file = file ∧ error.span.start = .after before := by
  refine ⟨fun tokens scanned => scan_stands scanned [] rfl rfl, ?_⟩
  intro error refused
  obtain ⟨before, culprit, behind, whole, ⟨pieces, last, decomposes⟩, alone, isCulprit, place⟩ :=
    scan_culprit file .origin 0 source [] error rfl nofun refused
  obtain ⟨tokens, scanned, -⟩ := scan_of_decomposes file .origin 0 decomposes
  rw [place]
  exact ⟨before, culprit, behind, whole, ⟨tokens, scanned⟩, alone, isCulprit, rfl, rfl⟩

theorem tokenize_positions_wide :
    let accepted := utf8 "// é\n 'é'"
    let refused := utf8 "// é\n  Ab"
    let tokens : List Token := [⟨.string, utf8 "'é'", 7, ⟨[], ⟨2, 2⟩, ⟨2, 5⟩⟩⟩,
      ⟨.endOfFile, [], 11, ⟨[], ⟨2, 5⟩, ⟨2, 5⟩⟩⟩]
    tokenize [] accepted = .ok tokens ∧ (∀ token ∈ tokens, token.Stands [] accepted) ∧
    tokenize [] refused = .error ⟨[], ⟨2, 3⟩, .mixedCase (utf8 "Ab")⟩ ∧
    ∃ before culprit behind, refused = before ++ culprit ++ behind ∧
      Culprit before behind (.mixedCase (utf8 "Ab")) culprit ∧ Position.after before = ⟨2, 3⟩ := by
  intro accepted refused tokens
  have string : (splitGap false accepted).2 = Text.quote :: utf8 "é'" := by decide
  have isString : split Text.quote (utf8 "é'") = .ok ⟨.string, utf8 "'é'", []⟩ := by rfl
  have scanned : tokenize [] accepted = .ok tokens :=
    (scan_lexeme [] .origin 0 string isString).trans
      (congrArg (Except.map _) (scan_gap [] _ _ rfl))
  have word : (splitGap false refused).2 = Text.byte 'A' :: utf8 "b" := by decide
  have isMixed : split (Text.byte 'A') (utf8 "b") = .error (.mixedCase (utf8 "Ab")) := by rfl
  have stopped : tokenize [] refused = .error ⟨[], ⟨2, 3⟩, .mixedCase (utf8 "Ab")⟩ :=
    scan_refused [] .origin 0 word isMixed
  obtain ⟨before, culprit, behind, whole, -, -, isCulprit, -, place⟩ :=
    (tokenize_positions [] refused).2 _ stopped
  exact ⟨scanned, (tokenize_positions [] accepted).1 tokens scanned, stopped, before, culprit, behind,
    whole, isCulprit, place.symm⟩

end Parlance
