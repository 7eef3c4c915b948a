import Parlance.Proofs.Grammar.Derivation
import Parlance.Proofs.Scanning.Spelling
import Parlance.Tree.Printer

namespace Parlance.Printer

open Parlance.Derivation Scanner

/-!
Pieces of printed text. A piece writes terminals if it spells them in front of
every text; a piece that ends with a word does so only in front of a text that
does not go on with the word. Whole texts are put together from pieces.
-/

/-- In front of every text, the piece spells these terminals. -/
def Writes (piece : Text) (terminals : List Terminal) : Prop :=
  ∀ rest behind, Spells rest behind → Spells (piece ++ rest) (terminals ++ behind)

/-- In front of a text that does not go on with a word, the piece spells these
terminals. -/
def WritesWord (piece : Text) (terminals : List Terminal) : Prop :=
  ∀ rest behind, Text.startsWith Text.isWord rest = false → Spells rest behind →
    Spells (piece ++ rest) (terminals ++ behind)

/-- The piece starts with a byte that ends every word in front of it. -/
def EndsWord (piece : Text) : Prop :=
  piece ≠ [] ∧ Text.startsWith Text.isWord piece = false

instance (piece : Text) : Decidable (EndsWord piece) :=
  inferInstanceAs (Decidable (_ ∧ _))

section Composition

variable {first second : Text} {front back : List Terminal}

theorem EndsWord.append (ends : EndsWord first) (rest : Text) :
    Text.startsWith Text.isWord (first ++ rest) = false := by
  obtain ⟨nonempty, stops⟩ := ends
  cases first with
  | nil => contradiction
  | cons b others => exact stops

theorem Writes.writesWord (writes : Writes first front) : WritesWord first front :=
  fun rest behind _ spelled => writes rest behind spelled

theorem Writes.append (writes : Writes first front) (writes' : Writes second back) :
    Writes (first ++ second) (front ++ back) := by
  intro rest behind spelled
  have whole := writes _ _ (writes' rest behind spelled)
  rwa [← List.append_assoc, ← List.append_assoc] at whole

theorem Writes.append_word (writes : Writes first front) (writes' : WritesWord second back) :
    WritesWord (first ++ second) (front ++ back) := by
  intro rest behind ends spelled
  have whole := writes _ _ (writes' rest behind ends spelled)
  rwa [← List.append_assoc, ← List.append_assoc] at whole

theorem WritesWord.append (writes : WritesWord first front) (writes' : Writes second back)
    (ends : EndsWord second) : Writes (first ++ second) (front ++ back) := by
  intro rest behind spelled
  have whole := writes _ _ (ends.append rest) (writes' rest behind spelled)
  rwa [← List.append_assoc, ← List.append_assoc] at whole

theorem WritesWord.append_word (writes : WritesWord first front)
    (writes' : WritesWord second back) (ends : EndsWord second) :
    WritesWord (first ++ second) (front ++ back) := by
  intro rest behind stops spelled
  have whole := writes _ _ (ends.append rest) (writes' rest behind stops spelled)
  rwa [← List.append_assoc, ← List.append_assoc] at whole

end Composition

section Pieces

theorem writes_nil : Writes [] [] :=
  fun _ _ spelled => spelled

theorem writes_blank : Writes (utf8 " ") [] :=
  fun _ _ spelled => .blank (by decide) spelled

theorem writes_newline : Writes (utf8 "\n") [] :=
  fun _ _ spelled => .blank (by decide) spelled

theorem writes_indent (depth : Nat) : Writes (indent depth) [] := by
  induction depth with
  | zero => exact writes_nil
  | succ depth inductionHypothesis =>
      have level : Writes (utf8 "  ") [] := writes_blank.append writes_blank
      have whole := level.append inductionHypothesis
      simpa [indent, Text.repeated, List.replicate_succ] using whole

theorem writes_openParen : Writes (utf8 "(") [.mark .openParen] :=
  fun _ _ spelled => .mark .openParen (by simp) spelled

theorem writes_closeParen : Writes (utf8 ")") [.mark .closeParen] :=
  fun _ _ spelled => .mark .closeParen (by simp) spelled

theorem writes_comma : Writes (utf8 ", ") [.mark .comma] :=
  fun _ _ spelled => .mark .comma (by simp) (.blank (by decide) spelled)

theorem writes_assign : Writes (utf8 "= ") [.mark .assign] :=
  fun _ _ spelled => .mark .assign (by simp) (.blank (by decide) spelled)

theorem writesWord_keyword (word : Keyword) : WritesWord word.spelling [.keyword word] :=
  fun _ _ ends spelled => .keyword word ends spelled

theorem writesWord_name {name : Text} (isName : Text.IsName name) : WritesWord name [.name name] :=
  fun _ _ ends spelled => .name isName ends spelled

theorem writesWord_number {digits : Text} (isNumeral : Text.IsNumeral digits) :
    WritesWord digits [.number digits] :=
  fun _ _ ends spelled => .number isNumeral ends spelled

theorem writes_string {raw : Text} (isRaw : Text.IsRawString raw) : Writes raw [.string raw] :=
  fun _ _ spelled => .string isRaw spelled

/-- A keyword with a blank or a newline behind it. -/
theorem writes_keyword_blank (word : Keyword) : Writes (word.spelling ++ utf8 " ") [.keyword word] :=
  (writesWord_keyword word).append writes_blank (by decide)

theorem writes_keyword_newline (word : Keyword) :
    Writes (word.spelling ++ utf8 "\n") [.keyword word] :=
  (writesWord_keyword word).append writes_newline (by decide)

/-- The blank keeps a slash from starting a comment. -/
theorem writes_mark_blank (symbol : Symbol) : Writes ([symbol.byte] ++ utf8 " ") [.mark symbol] :=
  fun _ _ spelled =>
    .mark symbol (fun slash => absurd (Option.some.inj slash.2) (by decide))
      (.blank (by decide) spelled)

theorem writes_operator {operator : Operator} (binary : operator ∈ binaryOperators) :
    Writes (operator.spelling ++ utf8 " ") [operator.sign] := by
  cases operator with
  | add => exact writes_mark_blank .plus
  | subtract => exact writes_mark_blank .minus
  | multiply => exact writes_mark_blank .star
  | divide => exact writes_mark_blank .slash
  | equal => exact writes_keyword_blank .equal
  | less => exact writes_keyword_blank .less
  | greater => exact writes_keyword_blank .greater
  | atMost => exact writes_keyword_blank .atMost
  | atLeast => exact writes_keyword_blank .atLeast
  | assign | print | unknown => simp [binaryOperators, operators] at binary

end Pieces

end Parlance.Printer
