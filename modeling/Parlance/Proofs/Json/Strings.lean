import Parlance.Json.Reader
import Parlance.Json.Writer
import Parlance.Proofs.Text.Characters

namespace Parlance.Json

/-!
JSON strings are read as they were written, but for malformed bytes, which are
written as U+FFFD.
-/

/-- Inside a string the first text is read as a whole, and it stands for the
second. There are no control characters in it. -/
structure Escapes (spelling value : Text) : Prop where
  visible : ∀ b ∈ spelling, 32 ≤ b.toNat
  spelled (rest : Text) :
    spelled? (spelling ++ rest) = (spelled? rest).map (Prod.map (spelling ++ ·) id)
  unescaped (rest : Text) :
    unescapeFrom 0 (spelling ++ rest) = value ++ unescapeFrom 0 rest

theorem visible_of_all {text : Text} (all : text.all (fun b => 32 ≤ b.toNat) = true) :
    ∀ b ∈ text, 32 ≤ b.toNat := by
  simpa using all

namespace Escapes

theorem nil : Escapes [] [] where
  visible := nofun
  spelled rest := by
    rw [List.nil_append]
    exact (congrFun Option.map_id (spelled? rest)).symm
  unescaped _ := rfl

theorem append {spelling value spelling' value' : Text} (escapes : Escapes spelling value)
    (escapes' : Escapes spelling' value') : Escapes (spelling ++ spelling') (value ++ value') where
  visible := List.forall_mem_append.mpr ⟨escapes.visible, escapes'.visible⟩
  spelled rest := by
    rw [List.append_assoc, escapes.spelled, escapes'.spelled, Option.map_map]
    congr 1
    funext behind
    exact Prod.ext (List.append_assoc ..).symm rfl
  unescaped rest := by
    rw [List.append_assoc, escapes.unescaped, escapes'.unescaped, List.append_assoc]

/-- A byte that needs no escape. -/
theorem plain {b : UInt8} (noQuote : b.toNat ≠ 34) (noBackslash : b.toNat ≠ 92)
    (noControl : 32 ≤ b.toNat) : Escapes [b] [b] := by
  have notQuote : b ≠ 34 := fun same => noQuote (congrArg UInt8.toNat same)
  have notBackslash : b ≠ 92 := fun same => noBackslash (congrArg UInt8.toNat same)
  have notControl : ¬ b < 32 := by
    rw [UInt8.lt_iff_toNat_lt]
    exact Nat.not_lt.mpr noControl
  constructor
  · exact List.forall_mem_singleton.mpr noControl
  · intro rest
    rw [List.singleton_append, spelled?.eq_def]
    simp only [if_neg notQuote, if_neg notBackslash, if_neg notControl]
    rfl
  · intro rest
    rw [List.singleton_append, unescapeFrom, if_pos notBackslash]
    rfl

theorem plainAll {text : Text}
    (all : ∀ b ∈ text, b.toNat ≠ 34 ∧ b.toNat ≠ 92 ∧ 32 ≤ b.toNat) : Escapes text text := by
  induction text with
  | nil => exact .nil
  | cons b text inductionHypothesis =>
      rw [List.forall_mem_cons] at all
      obtain ⟨⟨noQuote, noBackslash, noControl⟩, others⟩ := all
      exact (plain noQuote noBackslash noControl).append (inductionHypothesis others)

theorem spelled?_escape {b : UInt8} {rest : Text}
    (known : ((escapeValue? b).isSome || (b = Text.byte 'u' && (unit? rest).isSome)) = true) :
    spelled? (92 :: b :: rest) = (spelled? rest).map (Prod.map ([92, b] ++ ·) id) := by
  rw [spelled?]
  simp only [known, if_true]
  rfl

/-- A backslash and a letter. -/
theorem letter {b value : UInt8} (visible : 32 ≤ b.toNat) (known : escapeValue? b = some value) :
    Escapes [92, b] [value] := by
  have noUnit : b ≠ 117 := by
    rintro rfl
    have unknown : escapeValue? 117 = none := by decide
    rw [unknown] at known
    contradiction
  constructor
  · exact List.forall_mem_cons.mpr ⟨by decide, List.forall_mem_singleton.mpr visible⟩
  · intro rest
    exact spelled?_escape (by simp [known])
  · intro rest
    have noEscapedUnit : escapedUnit? (92 :: b :: rest) = none := by
      unfold escapedUnit?
      split
      · next same =>
          cases same
          contradiction
      · rfl
    simp [unescapeFrom, noEscapedUnit, known]

theorem digitValue?_hexDigit {value : Nat} (small : value < 16) :
    Text.digitValue? (hexDigit value) = some value := by
  have checked : ∀ value : Fin 16, Text.digitValue? (hexDigit value) = some value.val := by decide
  exact checked ⟨value, small⟩

theorem hexDigit_plain {value : Nat} (small : value < 16) :
    (hexDigit value).toNat ≠ 34 ∧ (hexDigit value).toNat ≠ 92 ∧ 32 ≤ (hexDigit value).toNat := by
  have checked : ∀ value : Fin 16, (hexDigit value).toNat ≠ 34 ∧ (hexDigit value).toNat ≠ 92 ∧
      32 ≤ (hexDigit value).toNat := by decide
  exact checked ⟨value, small⟩

theorem unit?_escape {code : Nat} (small : code < 65536) (rest : Text) :
    unit? (hexDigit (code / 4096 % 16) :: hexDigit (code / 256 % 16) ::
      hexDigit (code / 16 % 16) :: hexDigit (code % 16) :: rest) = some code := by
  have first := digitValue?_hexDigit (Nat.mod_lt (code / 4096) (by omega : 0 < 16))
  have second := digitValue?_hexDigit (Nat.mod_lt (code / 256) (by omega : 0 < 16))
  have third := digitValue?_hexDigit (Nat.mod_lt (code / 16) (by omega : 0 < 16))
  have fourth := digitValue?_hexDigit (Nat.mod_lt code (by omega : 0 < 16))
  have less (value : Nat) : value % 16 < 16 := Nat.mod_lt value (by omega)
  simp only [unit?, Text.ofRadix?, Text.readRadix, first, second, third, fourth, less, if_true,
    List.isEmpty_cons, Bool.false_eq_true, if_false]
  congr 1
  omega

theorem unescapeFrom_unit {code : Nat} {rest : Text} (small : code < 0xD800)
    (escaped : escapedUnit? (92 :: rest) = some code) :
    unescapeFrom 0 (92 :: rest) = Text.encode (Char.ofNat code) ++ unescapeFrom 5 rest := by
  have noPair : pair? code = fun _ => none := by
    funext low
    have early : ¬ 0xD800 ≤ code := Nat.not_le.mpr small
    simp [pair?, early]
  have scalar : Text.isScalar code = true := by simp [Text.isScalar, small]
  rw [unescapeFrom, if_neg (by decide)]
  simp [escaped, noPair, scalar]

/-- The code of a character in front of the surrogates. -/
theorem unicode {code : Nat} (small : code < 0xD800) :
    Escapes (unicodeEscape code) (Text.encode (Char.ofNat code)) := by
  have digit (value : Nat) := hexDigit_plain (Nat.mod_lt value (by omega : 0 < 16))
  have digits : Escapes [hexDigit (code / 4096 % 16), hexDigit (code / 256 % 16),
      hexDigit (code / 16 % 16), hexDigit (code % 16)] _ :=
    plainAll (by simp only [List.forall_mem_cons, digit, ne_eq, not_false_eq_true, and_self,
      List.not_mem_nil, false_imp_iff, implies_true])
  have opening : utf8 "\\u" = [92, 117] := by decide
  have unit := unit?_escape (by omega : code < 65536)
  unfold unicodeEscape
  rw [opening]
  constructor
  · exact List.forall_mem_append.mpr ⟨visible_of_all (by decide), digits.visible⟩
  · intro rest
    refine (spelled?_escape (by simp [unit]; decide)).trans ?_
    exact (congrArg (Option.map _) (digits.spelled rest)).trans (Option.map_map ..)
  · intro rest
    exact unescapeFrom_unit small (unit rest)

/-- A character that is written as it is. -/
theorem unescapedChar {character : Char} (noQuote : character.toNat ≠ 34)
    (noBackslash : character.toNat ≠ 92) (noControl : 32 ≤ character.toNat) :
    Escapes (Text.encode character) (Text.encode character) := by
  refine plainAll fun b member => ?_
  by_cases ascii : character.toNat < 128
  · rw [Text.encode_of_ascii ascii, List.mem_singleton] at member
    rw [member, Text.toNat_byte (by omega)]
    exact ⟨noQuote, noBackslash, noControl⟩
  · have high := Text.le_of_mem_encode (Nat.not_lt.mp ascii) b member
    omega

/-- A character as it is written. -/
theorem character (character : Char) : Escapes (escapeChar character) (Text.encode character) := by
  unfold escapeChar
  split
  · exact letter (by decide) (by decide)
  · exact letter (by decide) (by decide)
  · exact letter (by decide) (by decide)
  · exact letter (by decide) (by decide)
  · exact letter (by decide) (by decide)
  · next noQuote noBackslash _ _ _ =>
      have code {other : Char} (differs : character ≠ other) : character.toNat ≠ other.toNat :=
        fun same => differs (Char.toNat_inj.mp same)
      have known {code : Nat} (same : character.toNat = code) : Char.ofNat code = character := by
        rw [← same, Char.ofNat_toNat]
      dsimp only
      split
      · next backspace =>
          rw [← known backspace]
          exact letter (by decide) (by decide)
      · split
        · next formFeed =>
            rw [← known formFeed]
            exact letter (by decide) (by decide)
        · split
          · next special =>
              have small : character.toNat < 0xD800 := by
                simp only [Bool.or_eq_true, decide_eq_true_eq] at special
                rcases special with ((((low | rfl) | rfl) | rfl) | low) | low
                · omega
                · decide
                · decide
                · decide
                · omega
                · omega
              have escapes := unicode small
              rwa [Char.ofNat_toNat] at escapes
          · next plain =>
              simp only [Bool.or_eq_true, decide_eq_true_eq, not_or] at plain
              exact unescapedChar (code noQuote) (code noBackslash) (by omega)

end Escapes

theorem Escapes.characters (characters : List Char) :
    Escapes (characters.flatMap escapeChar) (Text.ofChars characters) := by
  induction characters with
  | nil => exact .nil
  | cons character characters inductionHypothesis =>
      rw [Text.ofChars, List.flatMap_cons, List.flatMap_cons]
      exact (Escapes.character character).append inductionHypothesis

/-- A string that is written is read with its malformed bytes replaced. -/
theorem string?_string (text rest : Text) :
    string? (text.chars.flatMap escapeChar ++ 34 :: rest) = some (repaired text, rest) := by
  have escapes := Escapes.characters text.chars
  have ends : spelled? (34 :: rest) = some ([], rest) := by
    rw [spelled?.eq_def]
    rfl
  have value := escapes.unescaped []
  rw [string?, escapes.spelled, ends]
  simp only [List.append_nil] at value
  simp [value, unescapeFrom, repaired, Text.chars_ofChars]

end Parlance.Json
