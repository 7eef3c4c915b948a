import Parlance.Token

namespace Parlance

/-!
Scanning. A source text is read as gaps and lexemes in turn. A gap is a run of
blanks and comments; a lexeme is split off the front of the text behind it.
Positions never influence how the text is split, they are computed from the
bytes passed.
-/

namespace Scanner

inductive Fault where
  | unterminatedString
  | unknownKeyword (word : Text)
  | mixedCase (word : Text)
  | leadingDigit (word : Text)
  | unexpected (character : Text)
  deriving DecidableEq, Repr

structure Lexeme where
  kind : Kind
  value : Text
  rest : Text
  deriving DecidableEq, Repr

/-- Splits the blanks and comments off the front. A comment runs from two
slashes up to the next newline. -/
def splitGap (inComment : Bool) : Text → Text × Text
  | [] => ([], [])
  | b :: rest =>
    if inComment then
      let (gap, after) := splitGap (b != Text.newline) rest
      (b :: gap, after)
    else if Text.isBlank b then
      let (gap, after) := splitGap false rest
      (b :: gap, after)
    else if b = Symbol.slash.byte ∧ rest.head? = some Symbol.slash.byte then
      let (gap, after) := splitGap true rest
      (b :: gap, after)
    else ([], b :: rest)

/-- Whether the text goes on with a keyword that ends its word, as the `IM`
in `x = 5IM`. -/
def keywordAhead (text : Text) : Bool :=
  !Text.startsWith Text.isWord (text.dropWhile Text.isUpper) &&
    (Keyword.ofSpelling? (text.takeWhile Text.isUpper)).isSome

/-- A word may end here: the text goes on with something else or with a
keyword glued to it. -/
def wordEnds (text : Text) : Bool :=
  !Text.startsWith Text.isWord text || keywordAhead text

def isNameByte (b : UInt8) : Bool :=
  Text.isLower b || Text.isDigit b

def splitNumber (text : Text) : Except Fault Lexeme :=
  if wordEnds (text.dropWhile Text.isDigit) then
    .ok ⟨.number, text.takeWhile Text.isDigit, text.dropWhile Text.isDigit⟩
  else .error (.leadingDigit (text.takeWhile Text.isWord))

/-- A name, or a fault that shows the whole word. -/
def splitName (text : Text) : Except Fault Lexeme :=
  if wordEnds (text.dropWhile isNameByte) then
    .ok ⟨.name, text.takeWhile isNameByte, text.dropWhile isNameByte⟩
  else .error (.mixedCase (text.takeWhile Text.isWord))

def splitKeyword (text : Text) : Except Fault Lexeme :=
  let word := text.takeWhile Text.isWord
  if word.any Text.isLower then .error (.mixedCase word)
  else
    match Keyword.ofSpelling? word with
    | some keyword => .ok ⟨.keyword keyword, word, text.dropWhile Text.isWord⟩
    | none => .error (.unknownKeyword word)

def isStringByte (b : UInt8) : Bool :=
  b != Text.quote && b != Text.newline

/-- The text behind an opening quote up to the closing one, which has to
stand on the same line. The lexeme keeps both quotes. -/
def splitString (text : Text) : Except Fault Lexeme :=
  match text.dropWhile isStringByte with
  | [] => .error .unterminatedString
  | b :: rest =>
    if b = Text.quote then
      .ok ⟨.string, Text.quoted (text.takeWhile isStringByte), rest⟩
    else .error .unterminatedString

def split (first : UInt8) (rest : Text) : Except Fault Lexeme :=
  match Symbol.ofByte? first with
  | some mark => .ok ⟨.mark mark, [first], rest⟩
  | none =>
    if Text.isDigit first then splitNumber (first :: rest)
    else if first = Text.quote then splitString rest
    else if Text.isLower first then splitName (first :: rest)
    else if Text.isUpper first then splitKeyword (first :: rest)
    else
      let character := Text.firstChar (first :: rest)
      .error (.unexpected
        (if Text.isWellFormed character then character else Text.encode Text.replacement))

theorem splitGap_append (inComment : Bool) (text : Text) :
    (splitGap inComment text).1 ++ (splitGap inComment text).2 = text := by
  induction text generalizing inComment with
  | nil => rfl
  | cons b rest inductionHypothesis =>
      unfold splitGap
      split
      · simp [inductionHypothesis]
      · split
        · simp [inductionHypothesis]
        · split <;> simp [inductionHypothesis]

theorem splitNumber_append {first : UInt8} {rest : Text} {lexeme : Lexeme}
    (digit : Text.isDigit first = true)
    (accepted : splitNumber (first :: rest) = .ok lexeme) :
    lexeme.value ++ lexeme.rest = first :: rest ∧ lexeme.value ≠ [] := by
  unfold splitNumber at accepted
  split at accepted
  · cases accepted
    exact ⟨List.takeWhile_append_dropWhile, by simp [digit]⟩
  · contradiction

theorem splitName_append {first : UInt8} {rest : Text} {lexeme : Lexeme}
    (lower : Text.isLower first = true)
    (accepted : splitName (first :: rest) = .ok lexeme) :
    lexeme.value ++ lexeme.rest = first :: rest ∧ lexeme.value ≠ [] := by
  unfold splitName at accepted
  split at accepted
  · cases accepted
    exact ⟨List.takeWhile_append_dropWhile, by simp [isNameByte, lower]⟩
  · contradiction

theorem splitKeyword_append {first : UInt8} {rest : Text} {lexeme : Lexeme}
    (upper : Text.isUpper first = true)
    (accepted : splitKeyword (first :: rest) = .ok lexeme) :
    lexeme.value ++ lexeme.rest = first :: rest ∧ lexeme.value ≠ [] := by
  simp only [splitKeyword] at accepted
  split at accepted
  · contradiction
  · split at accepted
    · cases accepted
      exact ⟨List.takeWhile_append_dropWhile, by simp [Text.isWord, upper]⟩
    · contradiction

theorem splitString_append {rest : Text} {lexeme : Lexeme}
    (accepted : splitString rest = .ok lexeme) :
    lexeme.value ++ lexeme.rest = Text.quote :: rest ∧ lexeme.value ≠ [] := by
  unfold splitString at accepted
  split at accepted
  · contradiction
  · next b after behind =>
      split at accepted
      · next closing =>
          cases accepted
          refine ⟨?_, by simp [Text.quoted]⟩
          have whole := List.takeWhile_append_dropWhile (p := isStringByte) (l := rest)
          rw [behind, closing] at whole
          simpa [Text.quoted] using whole
      · contradiction

/-- A lexeme is a nonempty piece from the front of the text. -/
theorem split_append {first : UInt8} {rest : Text} {lexeme : Lexeme}
    (accepted : split first rest = .ok lexeme) :
    lexeme.value ++ lexeme.rest = first :: rest ∧ lexeme.value ≠ [] := by
  unfold split at accepted
  split at accepted
  · cases accepted
    simp
  · split at accepted
    · next digit => exact splitNumber_append digit accepted
    · split at accepted
      · next opening => exact opening ▸ splitString_append accepted
      · split at accepted
        · next lower => exact splitName_append lower accepted
        · split at accepted
          · next upper => exact splitKeyword_append upper accepted
          · contradiction

theorem split_rest_length {first : UInt8} {rest : Text} {lexeme : Lexeme}
    (accepted : split first rest = .ok lexeme) : lexeme.rest.length ≤ rest.length := by
  obtain ⟨whole, nonempty⟩ := split_append accepted
  have lengths := congrArg List.length whole
  have positive := List.length_pos_iff.mpr nonempty
  simp only [List.length_append, List.length_cons] at lengths
  omega

end Scanner

structure ScanError where
  file : Text
  position : Position
  fault : Scanner.Fault
  deriving DecidableEq, Repr

namespace ScanError

def message (error : ScanError) : Text :=
  match error.fault with
  | .unterminatedString => utf8 "unterminated string literal"
  | .unknownKeyword word => utf8 "unknown keyword " ++ Text.quoted word
  | .mixedCase word => utf8 "invalid identifier " ++ Text.quoted word
  | .leadingDigit word => utf8 "invalid identifier " ++ Text.quoted word
  | .unexpected character => utf8 "unexpected character " ++ Text.quoted character

def hint (error : ScanError) : Text :=
  match error.fault with
  | .unterminatedString => utf8 "strings are single-quoted and end on the same line"
  | .unknownKeyword _ => utf8 "upper-case words are reserved for keywords"
  | .mixedCase _ => utf8 "identifiers use lower-case letters, digits and '_'"
  | .leadingDigit _ => utf8 "identifiers cannot start with a digit"
  | .unexpected _ => []

/-- One column wide, whatever the lexeme. -/
def span (error : ScanError) : Span :=
  ⟨error.file, error.position, ⟨error.position.line, error.position.column + 1⟩⟩

end ScanError

namespace Scanner

def scan (file : Text) (position : Position) (offset : Nat) (text : Text) :
    Except ScanError (List Token) :=
  let gap := (splitGap false text).1
  let start := position.advance gap
  match _behind : (splitGap false text).2 with
  | [] => .ok [⟨.endOfFile, [], offset + gap.length, ⟨file, start, start⟩⟩]
  | first :: rest =>
    match _accepted : split first rest with
    | .error fault => .error ⟨file, start, fault⟩
    | .ok lexeme =>
      let stop := start.advance lexeme.value
      let token : Token := ⟨lexeme.kind, lexeme.value, offset + gap.length, ⟨file, start, stop⟩⟩
      (scan file stop (offset + gap.length + lexeme.value.length) lexeme.rest).map (token :: ·)
termination_by text.length
decreasing_by
  have shorter := split_rest_length _accepted
  have whole := congrArg List.length (splitGap_append false text)
  rw [_behind] at whole
  simp only [List.length_append, List.length_cons] at whole
  omega

end Scanner

/-- The tokens of a source text. The last one, and no other, is the end of file. -/
def tokenize (file source : Text) : Except ScanError (List Token) :=
  Scanner.scan file .origin 0 source

end Parlance
