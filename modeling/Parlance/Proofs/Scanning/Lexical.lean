import Parlance.Proofs.Scanning.Newline

namespace Parlance

/-!
The lexical grammar. A text is put together from gaps and lexemes in turn, and
the scanner accepts exactly the texts that can be put together so. The grammar
looks at no position and knows nothing of how the text is split; that there is
only one way to take a text apart is a consequence.
-/

namespace Scanner

/-- Blanks and comments in front of `rest`. A comment runs up to the next
newline or to the end of the text. -/
inductive Gap (rest : Text) : Text → Prop
  | nil : Gap rest []
  | blank {b : UInt8} {gap : Text} (isBlank : Text.isBlank b = true) (tail : Gap rest gap) :
      Gap rest (b :: gap)
  | comment {body gap : Text} (inside : Text.newline ∉ body)
      (ends : ∀ b ∈ (gap ++ rest).head?, b = Text.newline) (tail : Gap rest gap) :
      Gap rest (Symbol.slash.byte :: Symbol.slash.byte :: (body ++ gap))

/-- The spelling of a lexeme in front of `rest`, for each kind. Numbers and
names go on as long as their bytes do. -/
inductive Form (rest : Text) : Kind → Text → Prop
  | mark (symbol : Symbol) (single : symbol = .slash → rest.head? ≠ some Symbol.slash.byte) :
      Form rest (.mark symbol) [symbol.byte]
  | string {raw : Text} (isRaw : Text.IsRawString raw) : Form rest .string raw
  | number {digits : Text} (isNumeral : Text.IsNumeral digits)
      (maximal : Text.startsWith Text.isDigit rest = false) : Form rest .number digits
  | name {word : Text} (isName : Text.IsName word)
      (maximal : Text.startsWith isNameByte rest = false) : Form rest .name word
  | keyword (word : Keyword) : Form rest (.keyword word) word.spelling

end Scanner

def Token.placement (token : Token) : Kind × Text × Nat :=
  (token.kind, token.value, token.offset)

namespace Scanner

/-- A lexeme with the gap in front of it. -/
structure Piece where
  gap : Text
  kind : Kind
  value : Text
  deriving DecidableEq, Repr

/-- Gaps and lexemes in turn, and a gap at the end. -/
inductive Assembled : Text → List Piece → Text → Prop
  | done {gap : Text} (isGap : Gap [] gap) : Assembled gap [] gap
  | piece {gap value rest last : Text} {kind : Kind} {pieces : List Piece}
      (isGap : Gap (value ++ rest) gap) (form : Form rest kind value)
      (tail : Assembled rest pieces last) :
      Assembled (gap ++ value ++ rest) (⟨gap, kind, value⟩ :: pieces) last

/-- Numbers, names and keywords consist of word bytes. -/
def isWordKind : Kind → Bool
  | .number | .name | .keyword _ => true
  | _ => false

/-- The second lexeme goes on with the word bytes of the first. -/
def touches (first second : Piece) : Bool :=
  isWordKind first.kind && second.gap.isEmpty && isWordKind second.kind

/-- Puts a word in front of the runs behind it, joined to the first of them or
as a run of its own. -/
def addWord (kind : Kind) (joined : Bool) : List (List Kind) → List (List Kind)
  | [] => [[kind]]
  | run :: runs => if joined then (kind :: run) :: runs else [kind] :: run :: runs

/-- The runs of word bytes outside strings and comments: for each of them the
kinds of the lexemes that it consists of. -/
def wordRuns : List Piece → List (List Kind)
  | [] => []
  | piece :: pieces =>
    if isWordKind piece.kind then
      addWord piece.kind (pieces.head?.any (touches piece)) (wordRuns pieces)
    else wordRuns pieces

/-- One word, or a number or name with a keyword behind it. -/
def IsRun : List Kind → Prop
  | [_] => True
  | [.number, .keyword _] => True
  | [.name, .keyword _] => True
  | _ => False

/-- The text consists of these pieces and the last gap, and its words do not run
into each other. -/
structure Decomposes (text : Text) (pieces : List Piece) (last : Text) : Prop where
  assembled : Assembled text pieces last
  runs : ∀ run ∈ wordRuns pieces, IsRun run

section Gaps

variable {rest gap : Text}

/-- Neither a blank nor a comment starts here. -/
def Solid (text : Text) : Prop :=
  ∀ b rest, text = b :: rest →
    Text.isBlank b = false ∧ ¬(b = Symbol.slash.byte ∧ rest.head? = some Symbol.slash.byte)

theorem Solid.nil : Solid [] := nofun

/-- Inside a comment nothing counts up to the next newline. -/
theorem splitGap_comment {body : Text} (inside : Text.newline ∉ body) (text : Text)
    (ends : ∀ b ∈ text.head?, b = Text.newline) :
    splitGap true (body ++ text) = (body ++ (splitGap false text).1, (splitGap false text).2) := by
  induction body with
  | nil =>
      cases text with
      | nil => rfl
      | cons b text =>
          have isNewline : b = Text.newline := ends b rfl
          have blank : Text.isBlank Text.newline = true := by decide
          simp [isNewline, splitGap_cons, gapMode?, blank]
  | cons b body inductionHypothesis =>
      simp only [List.mem_cons, not_or] at inside
      have goesOn : (b != Text.newline) = true := by simpa using Ne.symm inside.1
      rw [List.cons_append, splitGap_cons]
      simp only [gapMode?, goesOn, if_true, inductionHypothesis inside.2]
      rfl

theorem splitGap_of_gap (isGap : Gap rest gap) (solid : Solid rest) :
    splitGap false (gap ++ rest) = (gap, rest) := by
  induction isGap with
  | nil =>
      cases rest with
      | nil => rfl
      | cons b rest =>
          obtain ⟨noBlank, single⟩ := solid b rest rfl
          simp [splitGap_cons, gapMode?, noBlank, single]
  | blank isBlank tail inductionHypothesis =>
      simp [splitGap_cons, gapMode?, isBlank, inductionHypothesis]
  | @comment body gap inside ends tail inductionHypothesis =>
      have inside' : Text.newline ∉ Symbol.slash.byte :: body := by
        rw [List.mem_cons, not_or]
        exact ⟨by decide, inside⟩
      have opened : gapMode? false Symbol.slash.byte (some Symbol.slash.byte) = some true := by
        decide
      have commented := splitGap_comment inside' (gap ++ rest) ends
      rw [inductionHypothesis] at commented
      simp only [List.cons_append, List.append_assoc] at commented ⊢
      rw [splitGap_cons, List.head?_cons, opened]
      simp only [commented]

/-- What is split off inside a comment starts with the rest of the comment. -/
def Remark (rest gap : Text) : Prop :=
  ∃ body tail, gap = body ++ tail ∧ Text.newline ∉ body ∧
    (∀ b ∈ (tail ++ rest).head?, b = Text.newline) ∧ Gap rest tail

theorem gap_of_remark (remark : Remark rest (Symbol.slash.byte :: gap)) :
    Gap rest (Symbol.slash.byte :: Symbol.slash.byte :: gap) := by
  obtain ⟨body, tail, whole, inside, ends, isGap⟩ := remark
  cases body with
  | nil =>
      -- A slash does not end the comment.
      rw [← List.nil_append tail, ← whole] at ends
      exact absurd (ends _ rfl) (by decide)
  | cons b body =>
      cases whole
      exact .comment (fun member => inside (List.mem_cons_of_mem _ member)) ends isGap

theorem gap_of_splitGap (inComment : Bool) (text : Text) :
    (if inComment then Remark (splitGap inComment text).2 (splitGap inComment text).1
      else Gap (splitGap inComment text).2 (splitGap inComment text).1) ∧
      Solid (splitGap inComment text).2 := by
  -- Inside and outside of comments at once, as a comment opens inside a gap and the gap goes on
  -- behind it.
  induction text generalizing inComment with
  | nil =>
      refine ⟨?_, .nil⟩
      cases inComment with
      | false => exact Gap.nil
      | true => exact ⟨[], [], rfl, List.not_mem_nil, nofun, .nil⟩
  | cons b text inductionHypothesis =>
      rw [splitGap_cons]
      cases inComment with
      | true =>
          by_cases isNewline : b = Text.newline
          · obtain ⟨isGap, solid⟩ := inductionHypothesis false
            simp only [gapMode?, isNewline, bne_self_eq_false, if_true]
            exact ⟨⟨[], _, rfl, List.not_mem_nil, by simp, .blank (by decide) isGap⟩, solid⟩
          · obtain ⟨⟨body, tail, whole, inside, ends, isGap⟩, solid⟩ := inductionHypothesis true
            have goesOn : (b != Text.newline) = true := by simpa using isNewline
            simp only [gapMode?, goesOn, if_true]
            refine ⟨⟨b :: body, tail, by rw [whole, List.cons_append], ?_, ends, isGap⟩, solid⟩
            rw [List.mem_cons, not_or]
            exact ⟨Ne.symm isNewline, inside⟩
      | false =>
          by_cases isBlank : Text.isBlank b = true
          · obtain ⟨isGap, solid⟩ := inductionHypothesis false
            simp only [gapMode?, isBlank, if_true, Bool.false_eq_true, if_false]
            exact ⟨.blank isBlank isGap, solid⟩
          · by_cases opens : b = Symbol.slash.byte ∧ text.head? = some Symbol.slash.byte
            · obtain ⟨remark, solid⟩ := inductionHypothesis true
              simp only [gapMode?, isBlank, if_pos opens, Bool.false_eq_true, if_false]
              refine ⟨?_, solid⟩
              obtain ⟨rfl, second⟩ := opens
              obtain ⟨text, rfl⟩ := List.head?_eq_some_iff.mp second
              have goesOn : gapMode? true Symbol.slash.byte text.head? = some true := by rfl
              simp only [splitGap_cons, goesOn] at remark ⊢
              exact gap_of_remark remark
            · simp only [gapMode?, isBlank, if_neg opens, Bool.false_eq_true, if_false]
              refine ⟨.nil, ?_⟩
              rintro _ _ ⟨⟩
              exact ⟨by simpa using isBlank, opens⟩

end Gaps

/-- A word may end in front of `rest`. -/
def Ended (rest : Text) : Kind → Prop
  | .number | .name => wordEnds rest = true
  | .keyword _ => Text.startsWith Text.isWord rest = false
  | _ => True

section Lexemes

variable {rest value : Text} {kind : Kind}

theorem solid_of_isWord {first : UInt8} (word : Text.isWord first = true) (rest : Text) :
    Solid (first :: rest) := by
  rintro _ _ ⟨⟩
  exact ⟨isBlank_eq_false_of_isWord word, fun slash => ne_slash_of_isWord word slash.1⟩

/-- The first byte of a lexeme decides how the text is split, and it is no gap. -/
theorem split_of_form (form : Form rest kind value) (ended : Ended rest kind) :
    ∃ first others, value = first :: others ∧ Solid (first :: (others ++ rest)) ∧
      split first (others ++ rest) = .ok ⟨kind, value, rest⟩ := by
  cases form with
  | mark symbol single =>
      refine ⟨_, [], rfl, ?_, split_mark symbol rest⟩
      have solid : Text.isBlank symbol.byte = false := by cases symbol <;> decide
      have same : symbol.byte = Symbol.slash.byte → symbol = .slash := by cases symbol <;> decide
      rintro _ _ ⟨⟩
      exact ⟨solid, fun slash => single (same slash.1) slash.2⟩
  | string isRaw =>
      obtain ⟨inside, rfl, all⟩ := isRaw
      refine ⟨Text.quote, inside ++ [Text.quote], rfl, ?_, ?_⟩
      · rintro _ _ ⟨⟩
        exact ⟨by decide, fun slash => absurd slash.1 (by decide)⟩
      · rw [List.append_assoc]
        exact split_string all rest
  | number isNumeral maximal =>
      cases value with
      | nil => exact absurd rfl isNumeral.1
      | cons first others =>
          have digit : Text.isDigit first = true := isNumeral.2 first (by simp)
          exact ⟨first, others, rfl, solid_of_isWord (isWord_of_isDigit digit) _,
            split_number isNumeral maximal ended⟩
  | name isName maximal =>
      cases value with
      | nil => exact isName.elim
      | cons first others =>
          exact ⟨first, others, rfl, solid_of_isWord (isWord_of_isLower isName.1) _,
            split_name isName maximal ended⟩
  | keyword word =>
      cases letters : word.spelling with
      | nil => exact absurd letters word.spelling_ne_nil
      | cons first others =>
          have upper := word.isUpper_of_mem_spelling first (by simp [letters])
          exact ⟨first, others, rfl, solid_of_isWord (isWord_of_isUpper upper) _,
            split_keyword word letters ended⟩

theorem startsWith_dropWhile (accepts : UInt8 → Bool) (text : Text) :
    Text.startsWith accepts (text.dropWhile accepts) = false := by
  induction text with
  | nil => rfl
  | cons b text inductionHypothesis =>
      rw [List.dropWhile_cons]
      split
      · exact inductionHypothesis
      · next stops => simpa [Text.startsWith] using stops

theorem form_of_splitNumber {text : Text} {lexeme : Lexeme}
    (accepted : splitNumber text = .ok lexeme) (spellable : lexeme.terminal.Spellable) :
    Form lexeme.rest lexeme.kind lexeme.value ∧ Ended lexeme.rest lexeme.kind := by
  unfold splitNumber at accepted
  split at accepted
  · next ends =>
      cases accepted
      exact ⟨.number spellable (startsWith_dropWhile Text.isDigit text), ends⟩
  · contradiction

theorem form_of_splitName {text : Text} {lexeme : Lexeme}
    (accepted : splitName text = .ok lexeme) (spellable : lexeme.terminal.Spellable) :
    Form lexeme.rest lexeme.kind lexeme.value ∧ Ended lexeme.rest lexeme.kind := by
  unfold splitName at accepted
  split at accepted
  · next ends =>
      cases accepted
      exact ⟨.name spellable (startsWith_dropWhile isNameByte text), ends⟩
  · contradiction

theorem form_of_splitKeyword {text : Text} {lexeme : Lexeme}
    (accepted : splitKeyword text = .ok lexeme) :
    Form lexeme.rest lexeme.kind lexeme.value ∧ Ended lexeme.rest lexeme.kind := by
  simp only [splitKeyword] at accepted
  split at accepted
  · contradiction
  · split at accepted
    · next keyword found =>
        cases accepted
        dsimp only
        rw [← Keyword.spelling_of_ofSpelling? found]
        exact ⟨.keyword keyword, startsWith_dropWhile Text.isWord text⟩
    · contradiction

theorem form_of_splitString {text : Text} {lexeme : Lexeme}
    (accepted : splitString text = .ok lexeme) (spellable : lexeme.terminal.Spellable) :
    Form lexeme.rest lexeme.kind lexeme.value ∧ Ended lexeme.rest lexeme.kind := by
  unfold splitString at accepted
  split at accepted
  · contradiction
  · split at accepted
    · cases accepted
      exact ⟨.string spellable, trivial⟩
    · contradiction

theorem form_of_split {first : UInt8} {text : Text} {lexeme : Lexeme}
    (solid : Solid (first :: text)) (accepted : split first text = .ok lexeme) :
    Form lexeme.rest lexeme.kind lexeme.value ∧ Ended lexeme.rest lexeme.kind := by
  have spellable := split_spellable accepted
  unfold split at accepted
  split at accepted
  · next symbol found =>
      cases accepted
      obtain rfl := Symbol.byte_of_ofByte? found
      refine ⟨.mark symbol ?_, trivial⟩
      rintro rfl slash
      exact (solid _ _ rfl).2 ⟨rfl, slash⟩
  · split at accepted
    · exact form_of_splitNumber accepted spellable
    · split at accepted
      · exact form_of_splitString accepted spellable
      · split at accepted
        · exact form_of_splitName accepted spellable
        · split at accepted
          · exact form_of_splitKeyword accepted
          · contradiction

/-- Cutting a text off somewhere adds nothing at its front. -/
theorem startsWith_front {accepts : UInt8 → Bool} {front more : Text}
    (stops : Text.startsWith accepts (front ++ more) = false) :
    Text.startsWith accepts front = false := by
  cases front with
  | nil => rfl
  | cons b front => exact stops

theorem startsWith_nonempty {accepts : UInt8 → Bool} {text : Text}
    (starts : Text.startsWith accepts text = true) (more : Text) (other : UInt8 → Bool) :
    Text.startsWith other (text ++ more) = Text.startsWith other text := by
  cases text with
  | nil => contradiction
  | cons b text => rfl

theorem head?_front {front more : Text} {b : UInt8} (member : b ∈ front.head?) :
    b ∈ (front ++ more).head? := by
  cases front with
  | nil => contradiction
  | cons first front => exact member

theorem Solid.front {front more : Text} (solid : Solid (front ++ more)) : Solid front := by
  rintro b rest rfl
  obtain ⟨noBlank, single⟩ := solid b (rest ++ more) rfl
  exact ⟨noBlank, fun slash => single ⟨slash.1, head?_front slash.2⟩⟩

/-- A gap stays one when the text behind it is cut off somewhere. -/
theorem Gap.front {front more gap : Text} (isGap : Gap (front ++ more) gap) : Gap front gap := by
  induction isGap with
  | nil => exact .nil
  | blank isBlank tail inductionHypothesis => exact .blank isBlank inductionHypothesis
  | comment inside ends tail inductionHypothesis =>
      refine .comment inside (fun b member => ends b ?_) inductionHypothesis
      rw [← List.append_assoc]
      exact head?_front member

theorem Form.front {front more : Text} (form : Form (front ++ more) kind value) :
    Form front kind value := by
  cases form with
  | mark symbol single => exact .mark symbol fun slash found => single slash (head?_front found)
  | string isRaw => exact .string isRaw
  | number isNumeral maximal => exact .number isNumeral (startsWith_front maximal)
  | name isName maximal => exact .name isName (startsWith_front maximal)
  | keyword word => exact .keyword word

end Lexemes

/-- Words touch only where a keyword stands behind a number or a name. -/
def Joins (piece : Piece) (pieces : List Piece) : Prop :=
  ∀ next ∈ pieces.head?, touches piece next = true →
    (piece.kind = .number ∨ piece.kind = .name) ∧ ∃ word, next.kind = .keyword word

theorem touches_iff {first second : Piece} :
    touches first second = true ↔
      isWordKind first.kind = true ∧ second.gap = [] ∧ isWordKind second.kind = true := by
  simp [touches, and_assoc]

theorem wordRuns_head {piece : Piece} (isWord : isWordKind piece.kind = true)
    (pieces : List Piece) :
    ∃ others runs, wordRuns (piece :: pieces) = (piece.kind :: others) :: runs := by
  rw [wordRuns, if_pos isWord]
  generalize pieces.head?.any (touches piece) = joined
  cases wordRuns pieces with
  | nil => exact ⟨[], [], rfl⟩
  | cons run runs => cases joined <;> exact ⟨_, _, rfl⟩

theorem isRun_cons_cons {first second : Kind} {others : List Kind} :
    IsRun (first :: second :: others) ↔
      ((first = .number ∨ first = .name) ∧ ∃ word, second = .keyword word) ∧
        IsRun (second :: others) := by
  constructor
  · intro isRun
    unfold IsRun at isRun
    split at isRun
    · next same => cases same
    · next word same =>
        cases same
        exact ⟨⟨.inl rfl, word, rfl⟩, trivial⟩
    · next word same =>
        cases same
        exact ⟨⟨.inr rfl, word, rfl⟩, trivial⟩
    · exact isRun.elim
  · rintro ⟨⟨isFirst, word, rfl⟩, isRun⟩
    cases others with
    | nil => rcases isFirst with rfl | rfl <;> trivial
    | cons third others => simp [IsRun] at isRun

theorem wordRuns_cons_iff (piece : Piece) (pieces : List Piece) :
    (∀ run ∈ wordRuns (piece :: pieces), IsRun run) ↔
      Joins piece pieces ∧ ∀ run ∈ wordRuns pieces, IsRun run := by
  cases isWord : isWordKind piece.kind with
  | false =>
      have apart : Joins piece pieces := by simp [Joins, touches, isWord]
      simp [wordRuns, isWord, apart]
  | true =>
      cases pieces with
      | nil => simp [wordRuns, addWord, isWord, Joins, IsRun]
      | cons next pieces =>
          cases touching : touches piece next with
          | true =>
              -- The word is put in front of the run that the next one starts.
              obtain ⟨others, runs, same⟩ := wordRuns_head (touches_iff.mp touching).2.2 pieces
              rw [wordRuns, if_pos isWord, same]
              simp only [List.head?_cons, Option.any_some, touching, addWord, if_true,
                List.forall_mem_cons, Joins, isRun_cons_cons, Option.mem_some_iff, forall_eq',
                true_imp_iff, and_assoc]
          | false =>
              rw [wordRuns, if_pos isWord]
              cases wordRuns (next :: pieces) <;> simp [addWord, touching, Joins, IsRun]

theorem startsWith_gap {gap rest : Text} (isGap : Gap rest gap) (nonempty : gap ≠ [])
    (text : Text) : Text.startsWith Text.isWord (gap ++ text) = false := by
  cases isGap with
  | nil => contradiction
  | @blank b gap isBlank tail =>
      cases isWord : Text.isWord b with
      | false => exact isWord
      | true => rw [isBlank_eq_false_of_isWord isWord] at isBlank; contradiction
  | comment => exact (by decide : Text.isWord Symbol.slash.byte = false)

/-- The first byte tells numbers, names and keywords from other lexemes. -/
theorem startsWith_form {rest value : Text} {kind : Kind} (form : Form rest kind value) :
    Text.startsWith Text.isWord (value ++ rest) = isWordKind kind := by
  cases form with
  | mark symbol => cases symbol <;> rfl
  | string isRaw =>
      obtain ⟨inside, rfl, -⟩ := isRaw
      exact (by decide : Text.isWord Text.quote = false)
  | number isNumeral =>
      cases value with
      | nil => exact absurd rfl isNumeral.1
      | cons first others => exact isWord_of_isDigit (isNumeral.2 first (by simp))
  | name isName =>
      cases value with
      | nil => exact isName.elim
      | cons first others => exact isWord_of_isLower isName.1
  | keyword word =>
      cases letters : word.spelling with
      | nil => exact absurd letters word.spelling_ne_nil
      | cons first others =>
          exact isWord_of_isUpper (word.isUpper_of_mem_spelling first (by simp [letters]))

/-- Only a keyword starts with a capital. -/
theorem keyword_of_form {rest value : Text} {kind : Kind} (form : Form rest kind value)
    (upper : Text.startsWith Text.isUpper (value ++ rest) = true) :
    ∃ word, kind = .keyword word := by
  cases form with
  | mark symbol => cases symbol <;> contradiction
  | string isRaw =>
      obtain ⟨inside, rfl, -⟩ := isRaw
      exact absurd upper (by decide : Text.isUpper Text.quote ≠ true)
  | number isNumeral =>
      cases value with
      | nil => exact absurd rfl isNumeral.1
      | cons first others =>
          have letter : (Text.isLower first || Text.isUpper first) = true :=
            (Bool.or_eq_true ..).mpr (.inr upper)
          have digit := isNumeral.2 first (by simp)
          rw [isDigit_eq_false_of_letter letter] at digit
          contradiction
  | name isName =>
      cases value with
      | nil => exact isName.elim
      | cons first others =>
          have lower := isName.1
          rw [isLower_eq_false_of_isUpper upper] at lower
          contradiction
  | keyword word => exact ⟨word, rfl⟩

theorem startsWith_of_keywordAhead {text : Text} (ahead : keywordAhead text = true) :
    Text.startsWith Text.isUpper text = true := by
  have noKeyword : (Keyword.ofSpelling? []).isSome = false := by decide
  cases text with
  | nil => simp [keywordAhead, noKeyword] at ahead
  | cons first text =>
      cases upper : Text.isUpper first with
      | true => exact upper
      | false => simp [keywordAhead, upper, noKeyword] at ahead

theorem keywordAhead_spelling (word : Keyword) {rest : Text}
    (ends : Text.startsWith Text.isWord rest = false) :
    keywordAhead ([] ++ word.spelling ++ rest) = true := by
  have all := word.isUpper_of_mem_spelling
  have stops := startsWith_eq_false_of_imp (fun _ => isWord_of_isUpper) ends
  simp [keywordAhead, takeWhile_run all stops, dropWhile_run all stops, ends,
    Keyword.ofSpelling?_spelling]

section Words

variable {text last : Text} {pieces : List Piece}

/-- A text goes on with a word exactly if its first lexeme is one, without a gap
in front of it. -/
theorem startsWith_assembled (assembled : Assembled text pieces last) :
    Text.startsWith Text.isWord text = true ↔
      ∃ piece ∈ pieces.head?, piece.gap = [] ∧ isWordKind piece.kind = true := by
  cases assembled with
  | done isGap =>
      by_cases empty : text = []
      · simp [empty, Text.startsWith]
      · have apart := startsWith_gap isGap empty []
        rw [List.append_nil] at apart
        simp [apart]
  | @piece gap value rest _ kind pieces isGap form tail =>
      rw [List.append_assoc]
      by_cases empty : gap = []
      · simp [empty, startsWith_form form]
      · simp [empty, startsWith_gap isGap empty]

/-- Nothing joins a keyword. -/
theorem startsWith_of_joins {piece : Piece} {word : Keyword} (assembled : Assembled text pieces last)
    (isKeyword : piece.kind = .keyword word) (joins : Joins piece pieces) :
    Text.startsWith Text.isWord text = false := by
  cases goesOn : Text.startsWith Text.isWord text with
  | false => rfl
  | true =>
      obtain ⟨next, member, follows⟩ := (startsWith_assembled assembled).mp goesOn
      have touching : touches piece next = true :=
        touches_iff.mpr ⟨by rw [isKeyword]; rfl, follows⟩
      simpa [isKeyword] using (joins next member touching).1

theorem keywordAhead_of_keyword (assembled : Assembled text pieces last)
    (runs : ∀ run ∈ wordRuns pieces, IsRun run) {piece : Piece} (member : piece ∈ pieces.head?)
    (empty : piece.gap = []) {word : Keyword} (isKeyword : piece.kind = .keyword word) :
    keywordAhead text = true := by
  cases assembled with
  | done => cases member
  | @piece _ _ rest _ _ pieces isGap form tail =>
      cases member
      cases empty
      cases isKeyword
      cases form
      -- The keyword ends its run, so no word byte follows the spelling.
      have joins := ((wordRuns_cons_iff _ pieces).mp runs).1
      exact keywordAhead_spelling word (startsWith_of_joins tail rfl joins)

/-- Behind a number or a name a word starts only if it is a keyword. -/
theorem wordEnds_of_joins {piece : Piece} (assembled : Assembled text pieces last)
    (runs : ∀ run ∈ wordRuns pieces, IsRun run) (isWord : isWordKind piece.kind = true)
    (joins : Joins piece pieces) : wordEnds text = true := by
  cases goesOn : Text.startsWith Text.isWord text with
  | false => exact wordEnds_of_startsWith goesOn
  | true =>
      obtain ⟨next, member, follows⟩ := (startsWith_assembled assembled).mp goesOn
      obtain ⟨-, word, isKeyword⟩ := joins next member (touches_iff.mpr ⟨isWord, follows⟩)
      simp [wordEnds, keywordAhead_of_keyword assembled runs member follows.1 isKeyword]

theorem ended_of_joins {piece : Piece} (assembled : Assembled text pieces last)
    (runs : ∀ run ∈ wordRuns pieces, IsRun run) (joins : Joins piece pieces) :
    Ended text piece.kind := by
  cases isKind : piece.kind with
  | number | name => exact wordEnds_of_joins assembled runs (by rw [isKind]; rfl) joins
  | keyword word => exact startsWith_of_joins assembled isKind joins
  | _ => trivial

/-- A word that ends in front of a text does not run into the first piece of it. -/
theorem joins_of_ended {piece : Piece} {more : Text} (assembled : Assembled text pieces last)
    (ended : Ended (text ++ more) piece.kind) : Joins piece pieces := by
  intro next member touching
  obtain ⟨isWord, empty, follows⟩ := touches_iff.mp touching
  have starts := (startsWith_assembled assembled).mpr ⟨next, member, empty, follows⟩
  have goesOn : Text.startsWith Text.isWord (text ++ more) = true :=
    (startsWith_nonempty starts more _).trans starts
  have splits : piece.kind = .number ∨ piece.kind = .name := by
    cases isKind : piece.kind with
    | number => exact .inl rfl
    | name => exact .inr rfl
    | keyword word => simp [isKind, Ended, goesOn] at ended
    | _ => simp [isKind, isWordKind] at isWord
  have ends : wordEnds (text ++ more) = true := by
    rcases splits with isKind | isKind <;> rw [isKind] at ended <;> exact ended
  simp only [wordEnds, goesOn, Bool.not_true, Bool.false_or] at ends
  have upper := startsWith_of_keywordAhead ends
  rw [startsWith_nonempty starts] at upper
  refine ⟨splits, ?_⟩
  cases assembled with
  | done => cases member
  | piece isGap form tail =>
      cases member
      cases empty
      exact keyword_of_form form upper

end Words

/-- A gap, a lexeme and the rest make up the text. -/
theorem parted {text rest : Text} {first : UInt8} {lexeme : Lexeme}
    (behind : (splitGap false text).2 = first :: rest) (accepted : split first rest = .ok lexeme) :
    text = (splitGap false text).1 ++ lexeme.value ++ lexeme.rest := by
  rw [List.append_assoc, (split_append accepted).1, ← behind]
  exact (splitGap_append false text).symm

namespace Decomposes

variable {text last : Text} {pieces : List Piece}

/-- What the scanner splits off first is the first piece. -/
theorem split_first {piece : Piece} (decomposes : Decomposes text (piece :: pieces) last) :
    ∃ first rest lexeme, splitGap false text = (piece.gap, first :: rest) ∧
      split first rest = .ok lexeme ∧ lexeme.kind = piece.kind ∧ lexeme.value = piece.value ∧
      Decomposes lexeme.rest pieces last := by
  obtain ⟨assembled, runs⟩ := decomposes
  obtain ⟨joins, behind⟩ := (wordRuns_cons_iff piece pieces).mp runs
  cases assembled with
  | @piece gap value rest _ kind _ isGap form tail =>
      have ended : Ended rest kind := ended_of_joins tail behind joins
      obtain ⟨first, others, rfl, solid, accepted⟩ := split_of_form form ended
      refine ⟨first, others ++ rest, _, ?_, accepted, rfl, rfl, tail, behind⟩
      rw [List.append_assoc]
      exact splitGap_of_gap isGap solid

theorem split_last (decomposes : Decomposes text [] last) :
    last = text ∧ splitGap false text = (text, []) := by
  obtain ⟨⟨isGap⟩, -⟩ := decomposes
  have whole := splitGap_of_gap isGap .nil
  rw [List.append_nil] at whole
  exact ⟨rfl, whole⟩

/-- What the scanner splits off is a piece, also when the text behind it is cut off. -/
theorem of_split_front {first : UInt8} {rest front more : Text} {lexeme : Lexeme}
    (behind : (splitGap false text).2 = first :: rest) (accepted : split first rest = .ok lexeme)
    (tail : Decomposes front pieces last) (whole : lexeme.rest = front ++ more) :
    Decomposes ((splitGap false text).1 ++ lexeme.value ++ front)
      (⟨(splitGap false text).1, lexeme.kind, lexeme.value⟩ :: pieces) last := by
  obtain ⟨isGap, solid⟩ := gap_of_splitGap false text
  rw [behind] at isGap solid
  obtain ⟨form, ended⟩ := form_of_split solid accepted
  rw [← (split_append accepted).1, whole, ← List.append_assoc] at isGap
  rw [whole] at form ended
  exact ⟨.piece isGap.front form.front tail.assembled,
    (wordRuns_cons_iff _ _).mpr ⟨joins_of_ended tail.assembled ended, tail.runs⟩⟩

theorem of_split {first : UInt8} {rest : Text} {lexeme : Lexeme}
    (behind : (splitGap false text).2 = first :: rest) (accepted : split first rest = .ok lexeme)
    (tail : Decomposes lexeme.rest pieces last) :
    Decomposes text (⟨(splitGap false text).1, lexeme.kind, lexeme.value⟩ :: pieces) last := by
  have decomposes := of_split_front behind accepted tail (List.append_nil _).symm
  rwa [← parted behind accepted] at decomposes

/-- There is only one way to take a text apart. -/
theorem unique {last' : Text} {pieces' : List Piece} (decomposes : Decomposes text pieces last)
    (decomposes' : Decomposes text pieces' last') : pieces' = pieces ∧ last' = last := by
  -- Whichever way the text is taken apart, the first piece is what the scanner splits off.
  induction pieces generalizing text pieces' with
  | nil =>
      obtain ⟨rfl, behind⟩ := decomposes.split_last
      cases pieces' with
      | nil => exact ⟨rfl, decomposes'.split_last.1⟩
      | cons piece' pieces' =>
          obtain ⟨first, rest, _, behind', -⟩ := decomposes'.split_first
          cases behind.symm.trans behind'
  | cons piece pieces inductionHypothesis =>
      obtain ⟨first, rest, lexeme, behind, accepted, sameKind, sameValue, tail⟩ :=
        decomposes.split_first
      cases pieces' with
      | nil => cases behind.symm.trans decomposes'.split_last.2
      | cons piece' pieces' =>
          obtain ⟨first', rest', lexeme', behind', accepted', sameKind', sameValue', tail'⟩ :=
            decomposes'.split_first
          have same := behind.symm.trans behind'
          simp only [Prod.mk.injEq, List.cons.injEq] at same
          obtain ⟨sameGap, rfl, rfl⟩ := same
          cases accepted.symm.trans accepted'
          obtain ⟨rfl, sameLast⟩ := inductionHypothesis tail tail'
          refine ⟨congrArg (· :: pieces') ?_, sameLast⟩
          rw [Piece.mk.injEq]
          exact ⟨sameGap.symm, sameKind'.symm.trans sameKind, sameValue'.symm.trans sameValue⟩

end Decomposes

/-- The kind, value and offset of every lexeme, if the first gap starts at an offset. -/
def placed (offset : Nat) : List Piece → List (Kind × Text × Nat)
  | [] => []
  | piece :: pieces =>
    let start := offset + piece.gap.length
    (piece.kind, piece.value, start) :: placed (start + piece.value.length) pieces

/-- A place holds the lexeme that is said to stand there. -/
theorem slice_of_placed {text last : Text} {pieces : List Piece}
    (assembled : Assembled text pieces last) (front : Text) :
    ∀ entry ∈ placed front.length pieces,
      ((front ++ text).drop entry.2.2).take entry.2.1.length = entry.2.1 := by
  induction assembled generalizing front with
  | done => exact nofun
  | @piece gap value rest last kind pieces isGap form tail inductionHypothesis =>
      have behind := inductionHypothesis (front ++ gap ++ value)
      simp only [List.length_append, List.append_assoc] at behind
      simp only [placed, List.forall_mem_cons, List.append_assoc, Nat.add_assoc]
      refine ⟨?_, behind⟩
      rw [← List.length_append, ← List.append_assoc, List.drop_left, List.take_left]

theorem scan_of_decomposes (file : Text) (position : Position) (offset : Nat) {text last : Text}
    {pieces : List Piece} (decomposes : Decomposes text pieces last) :
    ∃ tokens, scan file position offset text = .ok tokens ∧
      tokens.map Token.placement =
        placed offset pieces ++ [(.endOfFile, [], offset + text.length)] := by
  induction pieces generalizing position offset text with
  | nil =>
      have behind := decomposes.split_last.2
      refine ⟨_, scan_gap file position offset (congrArg Prod.snd behind), ?_⟩
      simp [placed, behind, Token.placement]
  | cons piece pieces inductionHypothesis =>
      obtain ⟨first, rest, lexeme, behind, accepted, sameKind, sameValue, tail⟩ :=
        decomposes.split_first
      have whole := congrArg List.length (splitGap_append false text)
      rw [behind, ← (split_append accepted).1] at whole
      simp only [List.length_append] at whole
      rw [scan_lexeme file position offset (congrArg Prod.snd behind) accepted, behind]
      dsimp only
      obtain ⟨tokens, scanned, places⟩ := inductionHypothesis
        (lexeme.token file (position.advance piece.gap) (offset + piece.gap.length)).span.stop
        (offset + piece.gap.length + lexeme.value.length) tail
      refine ⟨_, by rw [Lexeme.token] at scanned ⊢; rw [scanned]; rfl, ?_⟩
      rw [List.map_cons, places, placed, ← sameKind, ← sameValue, ← whole]
      simp [Nat.add_assoc, Token.placement]

theorem decomposes_of_spells {text : Text} {terminals : List Terminal}
    (spelled : Spells text terminals) : ∃ pieces last, Decomposes text pieces last := by
  induction spelled with
  | @gap text behind =>
      have whole := splitGap_append false text
      have isGap := (gap_of_splitGap false text).1
      rw [behind, List.append_nil] at whole
      rw [behind, whole] at isGap
      exact ⟨[], text, .done isGap, nofun⟩
  | lexeme behind accepted tail inductionHypothesis =>
      obtain ⟨pieces, last, decomposes⟩ := inductionHypothesis
      exact ⟨_, last, .of_split behind accepted decomposes⟩

end Scanner

open Scanner

/-- The tokens of a source are the lexemes that it is put together from. -/
theorem placed_of_tokenize {file source : Text} {tokens : List Token}
    (scanned : tokenize file source = .ok tokens) :
    ∃ pieces last, Decomposes source pieces last ∧
      tokens.map Token.placement = placed 0 pieces ++ [(.endOfFile, [], source.length)] := by
  obtain ⟨terminals, spelled, -⟩ := spells_of_scan scanned
  obtain ⟨pieces, last, decomposes⟩ := decomposes_of_spells spelled
  obtain ⟨others, accepted, places⟩ := scan_of_decomposes file .origin 0 decomposes
  rw [Nat.zero_add] at places
  cases scanned.symm.trans accepted
  exact ⟨pieces, last, decomposes, places⟩

/-- The scanner accepts exactly the texts that the lexical grammar puts together,
there is one way to take such a text apart, and the tokens are its lexemes at
their places with the end of file behind them. -/
theorem tokenize_lexical (file source : Text) :
    ((∃ tokens, tokenize file source = .ok tokens) ↔
      ∃ pieces last, Decomposes source pieces last) ∧
    ∀ pieces last, Decomposes source pieces last →
      (∀ pieces' last', Decomposes source pieces' last' → pieces' = pieces ∧ last' = last) ∧
      ∃ tokens, tokenize file source = .ok tokens ∧
        tokens.map Token.placement =
          placed 0 pieces ++ [(.endOfFile, [], source.length)] ∧
        ∀ token ∈ tokens, (source.drop token.offset).take token.value.length = token.value := by
  have scanned {pieces last} (decomposes : Decomposes source pieces last) :=
    scan_of_decomposes file .origin 0 decomposes
  refine ⟨⟨?_, ?_⟩, ?_⟩
  · rintro ⟨tokens, accepted⟩
    obtain ⟨terminals, spelled, -⟩ := spells_of_scan accepted
    exact decomposes_of_spells spelled
  · rintro ⟨pieces, last, decomposes⟩
    obtain ⟨tokens, accepted, -⟩ := scanned decomposes
    exact ⟨tokens, accepted⟩
  · intro pieces last decomposes
    obtain ⟨tokens, accepted, places⟩ := scanned decomposes
    rw [Nat.zero_add] at places
    refine ⟨fun _ _ => decomposes.unique, tokens, accepted, places, fun token member => ?_⟩
    have entry := List.mem_map_of_mem (f := Token.placement) member
    rw [places, List.mem_append, List.mem_singleton] at entry
    rcases entry with inside | isEnd
    · exact slice_of_placed decomposes.assembled [] _ inside
    · simp only [Token.placement, Prod.mk.injEq] at isEnd
      simp [isEnd]

theorem tokenize_lexical_glued :
    let pieces : List Piece := [⟨[], .name, utf8 "a"⟩, ⟨[], .mark .assign, utf8 "="⟩,
      ⟨utf8 " ", .number, utf8 "1"⟩, ⟨[], .keyword .terminator, utf8 "IM"⟩]
    Decomposes (utf8 "a= 1IM// b") pieces (utf8 "// b") ∧
    ∃ tokens, tokenize [] (utf8 "a= 1IM// b") = .ok tokens ∧
      tokens.map Token.placement = placed 0 pieces ++ [(.endOfFile, [], 10)] := by
  intro pieces
  have comment : Assembled (utf8 "// b") [] (utf8 "// b") :=
    .done (@Gap.comment [] (utf8 " b") [] (by decide) nofun .nil)
  have keyword := Assembled.piece .nil (.keyword .terminator) comment
  have number := Assembled.piece (.blank (by decide : Text.isBlank 32 = true) .nil)
    (@Form.number _ (utf8 "1") ⟨by decide, List.all_eq_true.mp (by decide)⟩ (by decide))
    keyword
  have mark := Assembled.piece .nil (.mark .assign nofun) number
  have name := Assembled.piece .nil
    (@Form.name _ (utf8 "a") ⟨by decide, List.all_eq_true.mp (by decide)⟩ (by decide)) mark
  have decomposes : Decomposes (utf8 "a= 1IM// b") pieces (utf8 "// b") :=
    ⟨name, by simp [pieces, wordRuns, addWord, touches, isWordKind, IsRun]⟩
  obtain ⟨-, tokens, accepted, places, -⟩ := (tokenize_lexical [] _).2 _ _ decomposes
  exact ⟨decomposes, tokens, accepted, places⟩

end Parlance
