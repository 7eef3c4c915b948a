import Parlance.Proofs.Scanning.Lexical

namespace Parlance

open Scanner

/-!
What the bytes of a text belong to. From left to right a text is code, strings and
comments, and a byte with the one behind it tells what goes on. A text that is put
together from gaps and lexemes has its comments in the gaps, and every lexeme starts
in code.
-/

inductive Region where
  | code
  | string
  | comment
  deriving DecidableEq, Repr

/-- The region behind a byte. Strings and comments end with their line. -/
def Region.behind (b : UInt8) (next : Option UInt8) : Region → Region
  | .code =>
    if b = Text.quote then .string
    else if b = Symbol.slash.byte ∧ next = some Symbol.slash.byte then .comment
    else .code
  | .string => if b = Text.quote ∨ b = Text.newline then .code else .string
  | .comment => if b = Text.newline then .code else .comment

/-- Every byte with the region that it stands in. -/
def chart : Region → Text → List (Region × UInt8)
  | _, [] => []
  | region, b :: rest => (region, b) :: chart (region.behind b rest.head?) rest

/-- A comment is opened somewhere. -/
def Commented (region : Region) (text : Text) : Prop :=
  ∃ b, (.comment, b) ∈ chart region text

/-- The number of opening parentheses outside of strings and comments. -/
def openings (region : Region) (text : Text) : Nat :=
  (chart region text).count (.code, Symbol.openParen.byte)

section Steps

variable {b : UInt8} {rest : Text}

theorem chart_code (plain : b ≠ Text.quote)
    (single : ¬(b = Symbol.slash.byte ∧ rest.head? = some Symbol.slash.byte)) :
    chart .code (b :: rest) = (.code, b) :: chart .code rest := by
  rw [chart, Region.behind, if_neg plain, if_neg single]

/-- Bytes that open neither a string nor a comment. -/
theorem chart_run {run : Text} (plain : ∀ b ∈ run, b ≠ Text.quote ∧ b ≠ Symbol.slash.byte)
    (rest : Text) : chart .code (run ++ rest) = run.map (.code, ·) ++ chart .code rest := by
  induction run with
  | nil => rfl
  | cons b run inductionHypothesis =>
      obtain ⟨⟨noQuote, noSlash⟩, plain⟩ := List.forall_mem_cons.mp plain
      rw [List.cons_append, chart_code noQuote fun slash => noSlash slash.1,
        inductionHypothesis plain]
      rfl

theorem chart_inside {inside : Text} (all : ∀ b ∈ inside, isStringByte b = true) (rest : Text) :
    chart .string (inside ++ rest) = inside.map (.string, ·) ++ chart .string rest := by
  induction inside with
  | nil => rfl
  | cons b inside inductionHypothesis =>
      obtain ⟨goesOn, all⟩ := List.forall_mem_cons.mp all
      have noEnd : ¬(b = Text.quote ∨ b = Text.newline) := by simpa [isStringByte] using goesOn
      rw [List.cons_append, chart, Region.behind, if_neg noEnd, inductionHypothesis all]
      rfl

theorem chart_quoted {inside : Text} (all : ∀ b ∈ inside, isStringByte b = true) (rest : Text) :
    chart .code (Text.quoted inside ++ rest) =
      (.code, Text.quote) :: (inside ++ [Text.quote]).map (.string, ·) ++ chart .code rest := by
  have opened : Region.behind Text.quote (inside ++ Text.quote :: rest).head? .code = .string := rfl
  have closed : chart .string (Text.quote :: rest) = (.string, Text.quote) :: chart .code rest := rfl
  have whole : Text.quoted inside ++ rest = Text.quote :: (inside ++ Text.quote :: rest) := by
    simp [Text.quoted]
  rw [whole, chart, opened, chart_inside all, closed]
  simp

theorem chart_body {body : Text} (inside : Text.newline ∉ body) (rest : Text) :
    chart .comment (body ++ rest) = body.map (.comment, ·) ++ chart .comment rest := by
  induction body with
  | nil => rfl
  | cons b body inductionHypothesis =>
      obtain ⟨differs, inside⟩ := List.ne_and_not_mem_of_not_mem_cons inside
      rw [List.cons_append, chart, Region.behind, if_neg differs.symm, inductionHypothesis inside]
      rfl

theorem chart_remark {body : Text} (inside : Text.newline ∉ body) (rest : Text) :
    chart .code (Symbol.slash.byte :: Symbol.slash.byte :: (body ++ rest)) =
      (.code, Symbol.slash.byte) :: (Symbol.slash.byte :: body).map (.comment, ·) ++
        chart .comment rest := by
  have opened : chart .code (Symbol.slash.byte :: Symbol.slash.byte :: (body ++ rest)) =
      (.code, Symbol.slash.byte) :: (.comment, Symbol.slash.byte) :: chart .comment (body ++ rest) :=
    rfl
  rw [opened, chart_body inside]
  rfl

end Steps

/-- The region behind a whole text, if `next` stands behind it. -/
def Region.past : Region → Text → Option UInt8 → Region
  | region, [], _ => region
  | region, b :: rest, next => (region.behind b (rest.head?.or next)).past rest next

section Erasing

variable (region : Region) (front rest : Text)

theorem length_chart : (chart region front).length = front.length := by
  induction front generalizing region with
  | nil => rfl
  | cons b front inductionHypothesis => simp [chart, inductionHypothesis]

theorem chart_append :
    chart region (front ++ rest) = chart region front ++ chart (region.past front rest.head?) rest := by
  induction front generalizing region with
  | nil => rfl
  | cons b front inductionHypothesis =>
      rw [List.cons_append, chart, inductionHypothesis, List.head?_append]
      cases front with
      | nil => rfl
      | cons next front => rfl

theorem openings_append :
    openings region (front ++ rest) =
      openings region front + openings (region.past front rest.head?) rest := by
  rw [openings, chart_append, List.count_append, openings, openings]

/-- All that the next byte can change is that a comment starts in front of it. -/
theorem past_code_or_comment {b : UInt8} (inCode : region.past front (some b) = .code)
    (next : Option UInt8) : region.past front next = .code ∨ region.past front next = .comment := by
  induction front generalizing region with
  | nil => exact .inl inCode
  | cons first front inductionHypothesis =>
      cases front with
      | cons second front => exact inductionHypothesis _ inCode
      | nil =>
          cases region with
          | code =>
              by_cases opens : first = Text.quote
              · simp [Region.past, Region.behind, opens] at inCode
              · simp only [Region.past, Region.behind, if_neg opens]
                split <;> simp
          | string => exact .inl inCode
          | comment => exact .inl inCode

/-- A comment hides what any other region may show. -/
theorem openings_comment_le (text : Text) : openings .comment text ≤ openings region text := by
  induction text generalizing region with
  | nil => exact Nat.le_refl _
  | cons b text inductionHypothesis =>
      simp only [openings, chart, List.count_cons]
      by_cases ends : b = Text.newline
      · have same : Region.behind b text.head? region = .code := by
          subst ends
          cases region <;> rfl
        have same' : Region.behind b text.head? .comment = .code := if_pos ends
        rw [same, same']
        simp
      · have goesOn : Region.behind b text.head? .comment = .comment := if_neg ends
        rw [goesOn]
        have hidden := inductionHypothesis (region.behind b text.head?)
        simp only [openings] at hidden
        simp
        omega

/-- A byte of code that is taken out takes no parenthesis along but itself. -/
theorem openings_erase {b : UInt8} (inCode : region.past front (some b) = .code)
    (plain : b ≠ Text.quote ∧ b ≠ Symbol.slash.byte) :
    openings region (front ++ rest) + (if b = Symbol.openParen.byte then 1 else 0) ≤
      openings region (front ++ b :: rest) := by
  have shown : openings .code (b :: rest) =
      openings .code rest + if b = Symbol.openParen.byte then 1 else 0 := by
    rw [openings, chart_code plain.1 fun slash => plain.2 slash.1, List.count_cons, openings]
    simp
  rw [openings_append, openings_append, List.head?_cons, inCode, shown]
  rcases past_code_or_comment region front inCode rest.head? with same | opened
  · rw [same]
    omega
  · rw [opened]
    have hidden := openings_comment_le .code rest
    omega

theorem past_of_drop {b : UInt8}
    (starts : (chart .code (front ++ b :: rest)).drop front.length = chart .code (b :: rest)) :
    Region.code.past front (some b) = .code := by
  rw [chart_append, List.drop_left' (length_chart .code front)] at starts
  exact (Prod.mk.inj (List.cons.inj starts).1).1

end Erasing

namespace Scanner

/-- The bytes of a lexeme behind the first one stand in a string or in code. -/
def region : Kind → Region
  | .string => .string
  | _ => .code

def paint (kind : Kind) : Text → List (Region × UInt8)
  | [] => []
  | first :: others => (.code, first) :: others.map (region kind, ·)

section Lexemes

variable {rest gap value : Text} {kind : Kind}

theorem plain_of_isBlank {b : UInt8} (blank : Text.isBlank b = true) :
    b ≠ Text.quote ∧ b ≠ Symbol.slash.byte ∧ b ≠ Symbol.openParen.byte := by
  refine ⟨?_, ?_, ?_⟩ <;>
  · rintro rfl
    exact absurd blank (by decide)

theorem isWord_of_mem_form (form : Form rest kind value) (isWord : isWordKind kind = true) :
    ∀ b ∈ value, Text.isWord b = true := by
  intro b member
  cases form with
  | mark | string => contradiction
  | number isNumeral => exact isWord_of_isDigit (isNumeral.2 b member)
  | name isName =>
      cases value with
      | nil => contradiction
      | cons first others =>
          rcases List.mem_cons.mp member with rfl | behind
          · exact isWord_of_isLower isName.1
          · exact isWord_of_isNameByte (isName.2 b behind)
  | keyword word => exact isWord_of_isUpper (word.isUpper_of_mem_spelling b member)

theorem length_paint (kind : Kind) (value : Text) : (paint kind value).length = value.length := by
  cases value with
  | nil => rfl
  | cons first others => simp [paint]

theorem paint_word (isWord : isWordKind kind = true) (value : Text) :
    paint kind value = value.map (.code, ·) := by
  cases value with
  | nil => rfl
  | cons first others =>
      cases kind with
      | number | name | keyword => rfl
      | _ => contradiction

theorem chart_form (form : Form rest kind value) :
    chart .code (value ++ rest) = paint kind value ++ chart .code rest := by
  cases isWord : isWordKind kind with
  | true =>
      have plain : ∀ b ∈ value, b ≠ Text.quote ∧ b ≠ Symbol.slash.byte := fun b member =>
        have inside := isWord_of_mem_form form isWord b member
        ⟨ne_quote_of_isWord inside, ne_slash_of_isWord inside⟩
      rw [chart_run plain, paint_word isWord]
  | false =>
      cases form with
      | mark symbol single =>
          have plain : symbol.byte ≠ Text.quote := by cases symbol <;> decide
          have same : symbol.byte = Symbol.slash.byte → symbol = .slash := by cases symbol <;> decide
          exact chart_code plain fun slash => single (same slash.1) slash.2
      | string isRaw =>
          obtain ⟨inside, rfl, all⟩ := isRaw
          rw [chart_quoted all]
          rfl
      | number | name | keyword => contradiction

theorem comment_notMem_paint (kind : Kind) (value : Text) (b : UInt8) :
    (.comment, b) ∉ paint kind value := by
  cases value with
  | nil => exact List.not_mem_nil
  | cons first others =>
      have outside : region kind ≠ .comment := by
        intro inside
        cases kind <;> contradiction
      simp [paint, outside]

theorem count_paint (form : Form rest kind value) :
    (paint kind value).count (.code, Symbol.openParen.byte) =
      if kind = .mark .openParen then 1 else 0 := by
  cases isWord : isWordKind kind with
  | true =>
      have noMark : kind ≠ .mark .openParen := by
        rintro rfl
        contradiction
      rw [paint_word isWord, if_neg noMark, List.count_eq_zero]
      intro member
      obtain ⟨b, inside, same⟩ := List.mem_map.mp member
      cases same
      exact absurd (isWord_of_mem_form form isWord _ inside) (by decide)
  | false =>
      cases form with
      | mark symbol => cases symbol <;> rfl
      | string isRaw =>
          obtain ⟨inside, rfl, all⟩ := isRaw
          rw [if_neg (by simp), List.count_eq_zero]
          simp [Text.quoted, paint, region, (by decide : Symbol.openParen.byte ≠ Text.quote)]
      | number | name | keyword => contradiction

theorem commented_form (form : Form rest kind value) :
    Commented .code (value ++ rest) ↔ Commented .code rest := by
  simp [Commented, chart_form form, comment_notMem_paint]

theorem openings_form (form : Form rest kind value) :
    openings .code (value ++ rest) =
      (if kind = .mark .openParen then 1 else 0) + openings .code rest := by
  rw [openings, chart_form form, List.count_append, count_paint form, openings]

/-- A comment is opened where the gap has two slashes side by side. -/
theorem commented_gap (isGap : Gap rest gap) :
    Commented .code (gap ++ rest) ↔
      [Symbol.slash.byte, Symbol.slash.byte] <:+: gap ∨ Commented .code rest := by
  induction isGap with
  | nil => simp
  | @blank b gap isBlank tail inductionHypothesis =>
      obtain ⟨noQuote, noSlash, -⟩ := plain_of_isBlank isBlank
      have opens : ¬[Symbol.slash.byte, Symbol.slash.byte] <+: b :: gap := by
        rw [List.cons_prefix_cons]
        exact fun starts => noSlash starts.1.symm
      rw [List.infix_cons_iff, or_iff_right opens, ← inductionHypothesis]
      simp [Commented, chart_code noQuote fun slash => noSlash slash.1]
  | @comment body gap inside ends tail =>
      have opens : [Symbol.slash.byte, Symbol.slash.byte] <:+:
          Symbol.slash.byte :: Symbol.slash.byte :: (body ++ gap) :=
        (List.prefix_append [_, _] _).isInfix
      refine iff_of_true ⟨Symbol.slash.byte, ?_⟩ (.inl opens)
      rw [List.cons_append, List.cons_append, List.append_assoc, chart_remark inside]
      simp

/-- A comment ends with its line, so it hides nothing of what follows. -/
theorem openings_comment {text : Text} (ends : ∀ b ∈ text.head?, b = Text.newline) :
    openings .comment text = openings .code text := by
  cases text with
  | nil => rfl
  | cons b text =>
      cases ends b rfl
      rfl

theorem openings_gap (isGap : Gap rest gap) :
    openings .code (gap ++ rest) = openings .code rest := by
  induction isGap with
  | nil => rfl
  | @blank b gap isBlank tail inductionHypothesis =>
      obtain ⟨noQuote, noSlash, noParen⟩ := plain_of_isBlank isBlank
      rw [← inductionHypothesis, List.cons_append, openings,
        chart_code noQuote fun slash => noSlash slash.1, List.count_cons_of_ne (by simpa using noParen)]
      rfl
  | @comment body gap inside ends tail inductionHypothesis =>
      have hidden : ((Symbol.slash.byte :: body).map (Region.comment, ·)).count
          (.code, Symbol.openParen.byte) = 0 := by
        simp [List.count_eq_zero]
      rw [← inductionHypothesis, ← openings_comment ends, List.cons_append, List.cons_append,
        List.append_assoc, openings, chart_remark inside, List.cons_append,
        List.count_cons_of_ne (by decide), List.count_append, hidden, Nat.zero_add, openings]

theorem head?_form (form : Form rest kind value) : ∀ b ∈ (value ++ rest).head?, b ≠ Text.newline := by
  rintro b member rfl
  have noWord := startsWith_form form
  cases isWord : isWordKind kind with
  | true =>
      rw [isWord] at noWord
      cases whole : value ++ rest with
      | nil => simp [whole] at member
      | cons first others =>
          rw [whole] at member noWord
          cases member
          contradiction
  | false =>
      cases form with
      | mark symbol => cases symbol <;> cases member
      | string isRaw =>
          obtain ⟨inside, rfl, -⟩ := isRaw
          cases member
      | number | name | keyword => contradiction

/-- A gap that ends in front of a lexeme ends in code. -/
theorem drop_chart_gap (isGap : Gap rest gap) (ends : ∀ b ∈ rest.head?, b ≠ Text.newline) :
    (chart .code (gap ++ rest)).drop gap.length = chart .code rest := by
  induction isGap with
  | nil => rfl
  | @blank b gap isBlank tail inductionHypothesis =>
      obtain ⟨noQuote, noSlash, -⟩ := plain_of_isBlank isBlank
      rw [List.cons_append, chart_code noQuote fun slash => noSlash slash.1]
      exact inductionHypothesis
  | @comment body gap inside isLine tail inductionHypothesis =>
      have skipped : (Symbol.slash.byte :: Symbol.slash.byte :: (body ++ gap)).length =
          ((Region.code, Symbol.slash.byte) ::
            (Symbol.slash.byte :: body).map (Region.comment, ·)).length + gap.length := by
        simp only [List.length_cons, List.length_append, List.length_map]
        omega
      rw [List.cons_append, List.cons_append, List.append_assoc, chart_remark inside, skipped,
        List.drop_length_add_append]
      -- Behind the newline at the end of the comment, the regions are those of the rest of the gap.
      cases gap with
      | nil =>
          cases rest with
          | nil => rfl
          | cons b rest => exact absurd (isLine b rfl) (ends b rfl)
      | cons b gap =>
          cases isLine b rfl
          exact inductionHypothesis

end Lexemes

section Pieces

variable {text last : Text} {pieces : List Piece}

theorem commented_assembled (assembled : Assembled text pieces last) :
    Commented .code text ↔ ∃ gap ∈ pieces.map Piece.gap ++ [last],
      [Symbol.slash.byte, Symbol.slash.byte] <:+: gap := by
  induction assembled with
  | @done gap isGap =>
      have nothing : ¬Commented .code [] := by simp [Commented, chart]
      have whole := commented_gap isGap
      rw [List.append_nil, or_iff_left nothing] at whole
      simpa using whole
  | piece isGap form tail inductionHypothesis =>
      rw [List.append_assoc, commented_gap isGap, commented_form form, inductionHypothesis]
      simp

theorem openings_assembled (assembled : Assembled text pieces last) :
    openings .code text = (pieces.map Piece.kind).count (.mark .openParen) := by
  induction assembled with
  | @done gap isGap =>
      have whole := openings_gap isGap
      rw [List.append_nil] at whole
      exact whole
  | piece isGap form tail inductionHypothesis =>
      rw [List.append_assoc, openings_gap isGap, openings_form form, inductionHypothesis,
        List.map_cons, List.count_cons, Nat.add_comm]
      simp only [beq_iff_eq]

end Pieces

/-- Every lexeme starts in code. -/
theorem drop_chart_placed {text last : Text} {pieces : List Piece}
    (assembled : Assembled text pieces last) (offset : Nat) :
    ∀ entry ∈ placed offset pieces, ∃ passed, entry.2.2 = offset + passed ∧
      (chart .code text).drop passed = chart .code (text.drop passed) := by
  induction assembled generalizing offset with
  | done => exact List.forall_mem_nil _
  | @piece gap value rest last kind pieces isGap form tail inductionHypothesis =>
      have behindGap := drop_chart_gap isGap (head?_form form)
      have behindValue : (chart .code (value ++ rest)).drop value.length = chart .code rest := by
        rw [chart_form form, List.drop_left' (length_paint kind value)]
      intro entry member
      rcases List.mem_cons.mp member with rfl | behind
      · refine ⟨gap.length, rfl, ?_⟩
        rw [List.append_assoc, List.drop_left, behindGap]
      · obtain ⟨passed, place, same⟩ := inductionHypothesis _ entry behind
        refine ⟨gap.length + (value.length + passed), place.trans (by dsimp only; omega), ?_⟩
        rw [List.append_assoc, ← List.drop_drop, behindGap, ← List.drop_drop, behindValue, same]
        simp

theorem kinds_placed (offset : Nat) (pieces : List Piece) :
    (placed offset pieces).map Prod.fst = pieces.map Piece.kind := by
  induction pieces generalizing offset with
  | nil => rfl
  | cons piece pieces inductionHypothesis => simp [placed, inductionHypothesis]

end Scanner

/-- The parenthesis tokens of a text are its opening parentheses in code. -/
theorem count_openParen_of_tokenize {file source : Text} {tokens : List Token}
    (scanned : tokenize file source = .ok tokens) :
    (tokens.map Token.kind).count (.mark .openParen) = openings .code source := by
  obtain ⟨pieces, last, decomposes, places⟩ := placed_of_tokenize scanned
  have kinds := congrArg (List.map Prod.fst) places
  rw [List.map_map, List.map_append, kinds_placed] at kinds
  rw [openings_assembled decomposes.assembled]
  have same : Prod.fst ∘ Token.placement = Token.kind := rfl
  rw [← same, kinds, List.count_append]
  simp

/-- Every token but the last starts in code. -/
theorem past_of_token {file front rest : Text} {b : UInt8} {tokens : List Token} {token : Token}
    (scanned : tokenize file (front ++ b :: rest) = .ok tokens) (member : token ∈ tokens)
    (place : token.offset = front.length) (isLexeme : token.kind ≠ .endOfFile) :
    Region.code.past front (some b) = .code := by
  obtain ⟨pieces, last, decomposes, places⟩ := placed_of_tokenize scanned
  have entry := List.mem_map_of_mem (f := Token.placement) member
  rw [places, List.mem_append, List.mem_singleton] at entry
  rcases entry with inside | isEnd
  · obtain ⟨passed, same, starts⟩ := drop_chart_placed decomposes.assembled 0 _ inside
    have passedFront : passed = front.length := by
      rw [← place, ← Nat.zero_add passed]
      exact same.symm
    rw [passedFront, List.drop_left] at starts
    exact past_of_drop front rest starts
  · exact absurd (Prod.mk.inj isEnd).1 isLexeme

end Parlance
