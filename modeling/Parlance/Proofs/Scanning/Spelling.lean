import Parlance.Proofs.Terminal
import Parlance.Token.Scanner

namespace Parlance

/-!
What a text spells. Scanning computes places along the way, but the terminals
it finds depend on the text alone, so they are described by a relation that has
no places. A text is put together from spellings lexeme by lexeme, from its end
to its front.
-/

namespace Text

/-- A property of bytes that can be computed is checked byte by byte. -/
theorem forall_byte (holds : UInt8 → Bool)
    (checked : ∀ code : Fin 256, holds (UInt8.ofFin code) = true) (b : UInt8) :
    holds b = true := by
  simpa using checked b.toFin

/-- A lower-case letter or underscore with such letters and digits behind it. -/
def IsName : Text → Prop
  | [] => False
  | first :: rest => isLower first = true ∧ ∀ b ∈ rest, Scanner.isNameByte b = true

/-- Two quotes with neither a quote nor a newline between them. -/
def IsRawString (text : Text) : Prop :=
  ∃ inside, text = quoted inside ∧ ∀ b ∈ inside, Scanner.isStringByte b = true

def IsNumeral (text : Text) : Prop :=
  text ≠ [] ∧ ∀ b ∈ text, isDigit b = true

instance : (text : Text) → Decidable (IsName text)
  | [] => inferInstanceAs (Decidable False)
  | _ :: _ => inferInstanceAs (Decidable (_ ∧ _))

theorem isRawString_iff {text : Text} :
    IsRawString text ↔ text = quoted (text.drop 1).dropLast ∧
      (text.drop 1).dropLast.all Scanner.isStringByte = true := by
  constructor
  · rintro ⟨inside, rfl, all⟩
    simpa [quoted] using all
  · rintro ⟨whole, all⟩
    exact ⟨_, whole, List.all_eq_true.mp all⟩

instance (text : Text) : Decidable (IsRawString text) :=
  decidable_of_iff _ isRawString_iff.symm

end Text

/-- Terminals that texts spell: words and numbers have their form, and there
is no end of file among them. -/
def Terminal.Spellable : Terminal → Prop
  | .keyword _ => True
  | .mark _ => True
  | .number digits => Text.IsNumeral digits
  | .string raw => Text.IsRawString raw
  | .name word => Text.IsName word
  | .endOfFile => False
  | .foreign _ => False

/-- A terminal that has its form and, if it is a number, is in range. -/
def Terminal.Sound (terminal : Terminal) : Prop :=
  terminal.Spellable ∧ terminal.InRange

/-- How a terminal is written. -/
def Terminal.spelling : Terminal → Text
  | .keyword word => word.spelling
  | .mark symbol => [symbol.byte]
  | .number digits => digits
  | .string raw => raw
  | .name word => word
  | .endOfFile => []
  | .foreign _ => []

theorem Keyword.isUpper_of_mem_spelling (word : Keyword) :
    ∀ b ∈ word.spelling, Text.isUpper b = true := by
  cases word <;> decide +kernel

theorem Keyword.spelling_ne_nil (word : Keyword) : word.spelling ≠ [] := by
  cases word <;> decide +kernel

namespace Scanner

def Lexeme.terminal (lexeme : Lexeme) : Terminal :=
  .of lexeme.kind lexeme.value

/-- The token of a lexeme at its place. -/
def Lexeme.token (lexeme : Lexeme) (file : Text) (start : Position) (offset : Nat) : Token :=
  ⟨lexeme.kind, lexeme.value, offset, ⟨file, start, start.advance lexeme.value⟩⟩

/-- The text consists of gaps and lexemes, and these are the terminals of the
lexemes in their order. -/
inductive Spells : Text → List Terminal → Prop
  | gap {text : Text} (behind : (splitGap false text).2 = []) : Spells text []
  | lexeme {text rest : Text} {first : UInt8} {lexeme : Lexeme} {terminals : List Terminal}
      (behind : (splitGap false text).2 = first :: rest)
      (accepted : split first rest = .ok lexeme)
      (tail : Spells lexeme.rest terminals) :
      Spells text (lexeme.terminal :: terminals)

section Scan

variable (file : Text) (position : Position) (offset : Nat) {text : Text}

theorem scan_gap (behind : (splitGap false text).2 = []) :
    scan file position offset text =
      .ok [⟨.endOfFile, [], offset + (splitGap false text).1.length,
        ⟨file, position.advance (splitGap false text).1,
          position.advance (splitGap false text).1⟩⟩] := by
  rw [scan]
  split
  · rfl
  · next first rest found => simp [behind] at found

theorem scan_refused {first : UInt8} {rest : Text} {fault : Fault}
    (behind : (splitGap false text).2 = first :: rest) (refused : split first rest = .error fault) :
    scan file position offset text =
      .error ⟨file, position.advance (splitGap false text).1, fault⟩ := by
  rw [scan]
  split
  · next found => simp [behind] at found
  · next first rest found =>
      cases behind.symm.trans found
      split
      · next other found => cases refused.symm.trans found; rfl
      · next lexeme found => simp [refused] at found

theorem scan_lexeme {first : UInt8} {rest : Text} {lexeme : Lexeme}
    (behind : (splitGap false text).2 = first :: rest) (accepted : split first rest = .ok lexeme) :
    scan file position offset text =
      let start := position.advance (splitGap false text).1
      let token := lexeme.token file start (offset + (splitGap false text).1.length)
      (scan file token.span.stop (token.offset + lexeme.value.length) lexeme.rest).map
        (token :: ·) := by
  rw [scan]
  split
  · next found => simp [behind] at found
  · next first rest found =>
      cases behind.symm.trans found
      split
      · next fault found => simp [accepted] at found
      · next other found =>
          cases accepted.symm.trans found
          rfl

/-- A scan without a fault goes from lexeme to lexeme, up to the end of file. -/
inductive Scans (file : Text) : Position → Nat → Text → List Token → Prop
  | gap (position : Position) (offset : Nat) {text : Text} (behind : (splitGap false text).2 = []) :
      Scans file position offset text [⟨.endOfFile, [], offset + (splitGap false text).1.length,
        ⟨file, position.advance (splitGap false text).1,
          position.advance (splitGap false text).1⟩⟩]
  | lexeme (position : Position) (offset : Nat) {text rest : Text} {first : UInt8} {lexeme : Lexeme}
      {tokens : List Token} (behind : (splitGap false text).2 = first :: rest)
      (accepted : split first rest = .ok lexeme)
      (tail : Scans file ((position.advance (splitGap false text).1).advance lexeme.value)
        (offset + (splitGap false text).1.length + lexeme.value.length) lexeme.rest tokens) :
      Scans file position offset text
        (lexeme.token file (position.advance (splitGap false text).1)
          (offset + (splitGap false text).1.length) :: tokens)

theorem scans_of_scan {file : Text} {position : Position} {offset : Nat} {text : Text} :
    ∀ tokens, scan file position offset text = .ok tokens →
      Scans file position offset text tokens := by
  induction position, offset, text using scan.induct file with
  | case1 position offset text behind =>
      intro tokens scanned
      cases scanned.symm.trans (scan_gap file position offset behind)
      exact .gap position offset behind
  | case2 position offset text first rest behind fault refused =>
      intro tokens scanned
      rw [scan_refused file position offset behind refused] at scanned
      contradiction
  | case3 position offset text gap start first rest behind lexeme accepted stop inductionHypothesis =>
      intro tokens scanned
      rw [scan_lexeme file position offset behind accepted] at scanned
      dsimp only at scanned
      cases tail : scan file _ _ lexeme.rest with
      | error error =>
          rw [tail] at scanned
          contradiction
      | ok others =>
          rw [tail] at scanned
          cases scanned
          exact .lexeme position offset behind accepted (inductionHypothesis others tail)

/-- What is left behind a gap and a lexeme is shorter. -/
theorem lexeme_rest_shorter {first : UInt8} {rest : Text} {lexeme : Lexeme}
    (behind : (splitGap false text).2 = first :: rest) (accepted : split first rest = .ok lexeme) :
    lexeme.rest.length < text.length := by
  have shorter := split_rest_length accepted
  have whole := congrArg List.length (splitGap_append false text)
  simp only [behind, List.length_append, List.length_cons] at whole
  omega

/-- A text that spells terminals is scanned into them. -/
theorem scan_of_spells {terminals : List Terminal} (spelled : Spells text terminals) :
    ∃ tokens, scan file position offset text = .ok tokens ∧
      tokens.map Token.terminal = terminals ++ [.endOfFile] := by
  induction spelled generalizing position offset with
  | gap behind =>
      exact ⟨_, scan_gap file position offset behind, rfl⟩
  | lexeme behind accepted tail inductionHypothesis =>
      rw [scan_lexeme file position offset behind accepted]
      dsimp only
      obtain ⟨tokens, scanned, terminals⟩ := inductionHypothesis (Lexeme.token ..).span.stop _
      rw [scanned]
      exact ⟨_, rfl, by rw [List.map_cons, terminals]; rfl⟩

/-- Only a text that spells terminals is scanned. -/
theorem spells_of_scan {file : Text} {position : Position} {offset : Nat} {tokens : List Token}
    (scanned : scan file position offset text = .ok tokens) :
    ∃ terminals, Spells text terminals ∧ tokens.map Token.terminal = terminals ++ [.endOfFile] := by
  replace scanned := scans_of_scan tokens scanned
  induction scanned with
  | gap position offset behind => exact ⟨[], .gap behind, rfl⟩
  | lexeme position offset behind accepted tail inductionHypothesis =>
      obtain ⟨terminals, spelled, rest⟩ := inductionHypothesis
      exact ⟨_, .lexeme behind accepted spelled, by rw [List.map_cons, rest]; rfl⟩

end Scan

section Bytes

variable {b : UInt8}

theorem ofByte?_eq_none_of_isWord (word : Text.isWord b = true) : Symbol.ofByte? b = none := by
  have checked := Text.forall_byte (fun b => !Text.isWord b || Symbol.ofByte? b == none)
    (by decide +kernel) b
  simpa [word] using checked

theorem isBlank_eq_false_of_isWord (word : Text.isWord b = true) : Text.isBlank b = false := by
  have checked := Text.forall_byte (fun b => !Text.isWord b || !Text.isBlank b)
    (by decide +kernel) b
  simpa [word] using checked

theorem isWord_of_isNameByte (inside : isNameByte b = true) : Text.isWord b = true := by
  simp only [isNameByte, Bool.or_eq_true] at inside
  simp only [Text.isWord, Bool.or_eq_true]
  exact inside.imp_left .inl

theorem isWord_of_isDigit (digit : Text.isDigit b = true) : Text.isWord b = true := by
  simp [Text.isWord, digit]

theorem isWord_of_isLower (lower : Text.isLower b = true) : Text.isWord b = true := by
  simp [Text.isWord, lower]

theorem isWord_of_isUpper (upper : Text.isUpper b = true) : Text.isWord b = true := by
  simp [Text.isWord, upper]

/-- The classes of first bytes exclude each other. -/
theorem isLower_eq_false_of_isUpper (upper : Text.isUpper b = true) : Text.isLower b = false := by
  have checked := Text.forall_byte (fun b => !Text.isUpper b || !Text.isLower b)
    (by decide +kernel) b
  simpa [upper] using checked

theorem isDigit_eq_false_of_letter (letter : (Text.isLower b || Text.isUpper b) = true) :
    Text.isDigit b = false := by
  have checked := Text.forall_byte (fun b => !(Text.isLower b || Text.isUpper b) || !Text.isDigit b)
    (by decide +kernel) b
  rw [letter] at checked
  simpa using checked

theorem ne_quote_of_isWord (word : Text.isWord b = true) : b ≠ Text.quote := by
  rintro rfl
  exact absurd word (by decide)

theorem ne_slash_of_isWord (word : Text.isWord b = true) : b ≠ Symbol.slash.byte := by
  rintro rfl
  exact absurd word (by decide)

end Bytes

section Runs

variable {accepts : UInt8 → Bool} {run rest : Text}

/-- A run ends where a text begins that does not go on with it. -/
theorem takeWhile_run (inside : ∀ b ∈ run, accepts b = true)
    (ends : Text.startsWith accepts rest = false) : (run ++ rest).takeWhile accepts = run := by
  rw [List.takeWhile_append_of_pos inside]
  cases rest with
  | nil => simp
  | cons b rest =>
      have stops : accepts b = false := ends
      simp [stops]

theorem dropWhile_run (inside : ∀ b ∈ run, accepts b = true)
    (ends : Text.startsWith accepts rest = false) : (run ++ rest).dropWhile accepts = rest := by
  rw [List.dropWhile_append_of_pos inside]
  cases rest with
  | nil => simp
  | cons b rest =>
      have stops : accepts b = false := ends
      simp [stops]

theorem startsWith_eq_false_of_imp {narrow : UInt8 → Bool}
    (narrows : ∀ b, narrow b = true → accepts b = true)
    (ends : Text.startsWith accepts rest = false) : Text.startsWith narrow rest = false := by
  cases rest with
  | nil => rfl
  | cons b rest =>
      have stops : accepts b = false := ends
      cases found : narrow b with
      | false => exact found
      | true => simp [narrows b found] at stops

end Runs

theorem wordEnds_of_startsWith {rest : Text} (ends : Text.startsWith Text.isWord rest = false) :
    wordEnds rest = true := by
  simp [wordEnds, ends]

section Lexemes

variable {rest : Text}

theorem split_mark (symbol : Symbol) (rest : Text) :
    split symbol.byte rest = .ok ⟨.mark symbol, [symbol.byte], rest⟩ := by
  simp [split, Symbol.ofByte?_byte]

theorem split_name {first : UInt8} {others : Text} (isName : Text.IsName (first :: others))
    (maximal : Text.startsWith isNameByte rest = false) (ends : wordEnds rest = true) :
    split first (others ++ rest) = .ok ⟨.name, first :: others, rest⟩ := by
  obtain ⟨lower, inside⟩ := isName
  have word := isWord_of_isLower lower
  have all : ∀ b ∈ first :: others, isNameByte b = true := by
    simpa [isNameByte, lower] using inside
  simp only [split, ofByte?_eq_none_of_isWord word, splitName, ← List.cons_append,
    isDigit_eq_false_of_letter (by simp [lower] : (Text.isLower first || Text.isUpper first) = true),
    ne_quote_of_isWord word, lower, takeWhile_run all maximal, dropWhile_run all maximal, ends]
  simp

theorem split_number {first : UInt8} {others : Text} (isNumeral : Text.IsNumeral (first :: others))
    (maximal : Text.startsWith Text.isDigit rest = false) (ends : wordEnds rest = true) :
    split first (others ++ rest) = .ok ⟨.number, first :: others, rest⟩ := by
  have all := isNumeral.2
  have digit : Text.isDigit first = true := all first (by simp)
  simp only [split, ofByte?_eq_none_of_isWord (isWord_of_isDigit digit), splitNumber,
    ← List.cons_append, digit, takeWhile_run all maximal, dropWhile_run all maximal, ends]
  simp

theorem split_keyword (word : Keyword) {first : UInt8} {others : Text}
    (letters : word.spelling = first :: others) (ends : Text.startsWith Text.isWord rest = false) :
    split first (others ++ rest) = .ok ⟨.keyword word, first :: others, rest⟩ := by
  have upper := word.isUpper_of_mem_spelling
  have found := Keyword.ofSpelling?_spelling word
  rw [letters] at upper found
  have all : ∀ b ∈ first :: others, Text.isWord b = true := fun b member =>
    isWord_of_isUpper (upper b member)
  have noLower : (first :: others).any Text.isLower = false := by
    rw [List.any_eq_false]
    intro b member
    simp [isLower_eq_false_of_isUpper (upper b member)]
  have isUpper := upper first (by simp)
  have isWord := isWord_of_isUpper isUpper
  simp only [split, ofByte?_eq_none_of_isWord isWord, splitKeyword, ← List.cons_append,
    isDigit_eq_false_of_letter (by simp [isUpper] : (Text.isLower first || Text.isUpper first) = true),
    ne_quote_of_isWord isWord, isLower_eq_false_of_isUpper isUpper, isUpper,
    takeWhile_run all ends, dropWhile_run all ends, noLower, found]
  simp

theorem split_string {inside : Text} (all : ∀ b ∈ inside, isStringByte b = true) (rest : Text) :
    split Text.quote (inside ++ Text.quote :: rest) = .ok ⟨.string, Text.quoted inside, rest⟩ := by
  have ends : Text.startsWith isStringByte (Text.quote :: rest) = false := by
    simp [Text.startsWith, isStringByte]
  have noMark : Symbol.ofByte? Text.quote = none := by decide
  have noDigit : Text.isDigit Text.quote = false := by decide
  simp only [split, noMark, noDigit, splitString, takeWhile_run all ends, dropWhile_run all ends]
  simp

end Lexemes

theorem splitGap_blank {b : UInt8} (rest : Text) (blank : Text.isBlank b = true) :
    (splitGap false (b :: rest)).2 = (splitGap false rest).2 := by
  simp [splitGap, blank]

theorem splitGap_front {b : UInt8} {rest : Text} (solid : Text.isBlank b = false)
    (single : ¬(b = Symbol.slash.byte ∧ rest.head? = some Symbol.slash.byte)) :
    (splitGap false (b :: rest)).2 = b :: rest := by
  simp only [splitGap, solid, if_neg single, Bool.false_eq_true, if_false]

namespace Spells

variable {rest : Text} {terminals : List Terminal}

theorem nil : Spells [] [] :=
  .gap rfl

theorem blank {b : UInt8} (blank : Text.isBlank b = true) (spelled : Spells rest terminals) :
    Spells (b :: rest) terminals := by
  cases spelled with
  | gap behind => exact .gap (by rw [splitGap_blank rest blank, behind])
  | lexeme behind accepted tail =>
      exact .lexeme (by rw [splitGap_blank rest blank, behind]) accepted tail

theorem front {first : UInt8} {text : Text} {lexeme : Lexeme} (solid : Text.isBlank first = false)
    (single : ¬(first = Symbol.slash.byte ∧ text.head? = some Symbol.slash.byte))
    (accepted : split first text = .ok lexeme) (tail : Spells lexeme.rest terminals) :
    Spells (first :: text) (lexeme.terminal :: terminals) :=
  .lexeme (splitGap_front solid single) accepted tail

/-- Words start neither a gap nor a comment. -/
theorem word {first : UInt8} {text : Text} {lexeme : Lexeme} (word : Text.isWord first = true)
    (accepted : split first text = .ok lexeme) (tail : Spells lexeme.rest terminals) :
    Spells (first :: text) (lexeme.terminal :: terminals) :=
  front (isBlank_eq_false_of_isWord word) (fun slash => ne_slash_of_isWord word slash.1) accepted tail

theorem mark (symbol : Symbol)
    (single : ¬(symbol = .slash ∧ rest.head? = some Symbol.slash.byte))
    (spelled : Spells rest terminals) :
    Spells (symbol.byte :: rest) (.mark symbol :: terminals) := by
  have solid : Text.isBlank symbol.byte = false := by cases symbol <;> decide
  have same : symbol.byte = Symbol.slash.byte → symbol = .slash := by cases symbol <;> decide
  exact front solid (fun slash => single ⟨same slash.1, slash.2⟩) (split_mark symbol rest) spelled

theorem name {name : Text} (isName : Text.IsName name)
    (ends : Text.startsWith Text.isWord rest = false) (spelled : Spells rest terminals) :
    Spells (name ++ rest) (.name name :: terminals) := by
  cases name with
  | nil => exact isName.elim
  | cons first others =>
      have maximal : Text.startsWith isNameByte rest = false :=
        startsWith_eq_false_of_imp (fun _ => isWord_of_isNameByte) ends
      exact Spells.word (isWord_of_isLower isName.1)
        (split_name isName maximal (wordEnds_of_startsWith ends)) spelled

theorem number {digits : Text} (isNumeral : Text.IsNumeral digits)
    (ends : Text.startsWith Text.isWord rest = false) (spelled : Spells rest terminals) :
    Spells (digits ++ rest) (.number digits :: terminals) := by
  cases digits with
  | nil => exact absurd rfl isNumeral.1
  | cons first others =>
      have digit : Text.isDigit first = true := isNumeral.2 first (by simp)
      have maximal : Text.startsWith Text.isDigit rest = false :=
        startsWith_eq_false_of_imp (fun _ => isWord_of_isDigit) ends
      exact Spells.word (isWord_of_isDigit digit)
        (split_number isNumeral maximal (wordEnds_of_startsWith ends)) spelled

theorem keyword (word : Keyword) (ends : Text.startsWith Text.isWord rest = false)
    (spelled : Spells rest terminals) :
    Spells (word.spelling ++ rest) (.keyword word :: terminals) := by
  have upper := word.isUpper_of_mem_spelling
  cases letters : word.spelling with
  | nil => exact absurd letters word.spelling_ne_nil
  | cons first others =>
      have isUpper := upper first (by simp [letters])
      exact Spells.word (isWord_of_isUpper isUpper) (split_keyword word letters ends) spelled

theorem string {raw : Text} (isRaw : Text.IsRawString raw) (spelled : Spells rest terminals) :
    Spells (raw ++ rest) (.string raw :: terminals) := by
  obtain ⟨inside, rfl, all⟩ := isRaw
  have written : Text.quoted inside ++ rest = Text.quote :: (inside ++ Text.quote :: rest) := by
    simp [Text.quoted]
  rw [written]
  exact front (by decide) (fun slash => absurd slash.1 (by decide)) (split_string all rest) spelled

end Spells

/-- What a lexeme is written as has the form its kind asks for. -/
theorem split_spellable {first : UInt8} {rest : Text} {lexeme : Lexeme}
    (accepted : split first rest = .ok lexeme) : lexeme.terminal.Spellable := by
  unfold split at accepted
  split at accepted
  · cases accepted
    trivial
  · split at accepted
    · next digit =>
        unfold splitNumber at accepted
        split at accepted
        · cases accepted
          exact ⟨by simp [digit], List.all_eq_true.mp List.all_takeWhile⟩
        · contradiction
    · split at accepted
      · unfold splitString at accepted
        split at accepted
        · contradiction
        · split at accepted
          · cases accepted
            exact ⟨_, rfl, List.all_eq_true.mp List.all_takeWhile⟩
          · contradiction
      · split at accepted
        · next lower =>
            unfold splitName at accepted
            split at accepted
            · cases accepted
              have inside : isNameByte first = true := by simp [isNameByte, lower]
              simp only [Lexeme.terminal, Terminal.of, Terminal.Spellable, Text.IsName,
                List.takeWhile_cons, inside, if_true]
              exact ⟨lower, List.all_eq_true.mp List.all_takeWhile⟩
            · contradiction
        · split at accepted
          · simp only [splitKeyword] at accepted
            split at accepted
            · contradiction
            · split at accepted
              · cases accepted
                trivial
              · contradiction
          · contradiction

theorem Spells.spellable {text : Text} {terminals : List Terminal} (spelled : Spells text terminals) :
    ∀ terminal ∈ terminals, terminal.Spellable := by
  induction spelled with
  | gap behind => simp
  | lexeme behind accepted tail inductionHypothesis =>
      simpa using ⟨split_spellable accepted, inductionHypothesis⟩

/-- Terminals written one after another with a blank behind each. -/
def written : List Terminal → Text
  | [] => []
  | terminal :: terminals => terminal.spelling ++ Text.byte ' ' :: written terminals

theorem spells_written {terminals : List Terminal}
    (spellable : ∀ terminal ∈ terminals, terminal.Spellable) : Spells (written terminals) terminals := by
  induction terminals with
  | nil => exact .nil
  | cons terminal terminals inductionHypothesis =>
      have form := spellable terminal (by simp)
      have behind := inductionHypothesis fun other member => spellable other (by simp [member])
      have spelled : Spells (Text.byte ' ' :: written terminals) terminals := .blank (by decide) behind
      have ends : Text.startsWith Text.isWord (Text.byte ' ' :: written terminals) = false := by
        simp only [Text.startsWith]
        decide
      cases terminal with
      | keyword word => exact .keyword word ends spelled
      | number digits => exact .number form ends spelled
      | string raw => exact .string form spelled
      | name word => exact .name form ends spelled
      | mark symbol => exact .mark symbol (fun slash => absurd (Option.some.inj slash.2) (by decide)) spelled
      | endOfFile => exact form.elim
      | foreign code => exact form.elim

end Scanner

end Parlance
