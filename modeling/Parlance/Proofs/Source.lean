import Parlance.Proofs.Grammar.Recognition
import Parlance.Proofs.Scanning.Spelling
import Parlance.Source

namespace Parlance

open Parlance.Derivation Scanner

/-!
Source texts and derivations. A text is a program exactly when it spells the
terminals of a greedy derivation, whatever file it is said to come from.
-/

/-- A derivation that a program can have been read by: it is greedy up to the
end of file, its numbers are in range and no parameter is repeated. -/
structure Derivation.Statements.Valid (derivation : Statements) : Prop where
  greedy : derivation.Greedy .endOfFile
  distinct : derivation.Distinct
  inRange : ∀ terminal ∈ derivation.terminals, terminal.InRange

/-- The scanner puts the end of file behind the last lexeme only. -/
theorem tokenize_ended {file source : Text} {tokens : List Token}
    (scanned : tokenize file source = .ok tokens) : Ended tokens := by
  obtain ⟨terminals, spelled, mapped⟩ := spells_of_scan scanned
  obtain ⟨front, back, rfl, frontMapped, backMapped⟩ := List.map_eq_append_iff.mp mapped
  obtain ⟨last, rfl, isEnd⟩ : ∃ last, back = [last] ∧ last.terminal = .endOfFile := by
    simpa [List.map_eq_cons_iff] using backMapped
  refine ⟨front, last, rfl, Token.kind_of_terminal isEnd, ?_⟩
  intro token member isEnd
  have spellable := spelled.spellable token.terminal (frontMapped ▸ List.mem_map_of_mem member)
  simp [Token.terminal, Terminal.of, isEnd, Terminal.Spellable] at spellable

theorem parse_eq_ok_iff {file source : Text} {program : Program} :
    parse file source = .ok program ↔
      ∃ tokens, tokenize file source = .ok tokens ∧ parseTokens file tokens = .ok program := by
  unfold parse
  cases tokenize file source with
  | error error => simp
  | ok tokens => cases parsed : parseTokens file tokens <;> simp [parsed]

theorem parse_of_tokens {file source : Text} {tokens : List Token} {program : Program}
    (scanned : (tokenize file source).toOption = some tokens)
    (parsed : parseTokens file tokens = .ok program) : parse file source = .ok program := by
  refine parse_eq_ok_iff.mpr ⟨tokens, ?_, parsed⟩
  cases ended : tokenize file source with
  | error error =>
      rw [ended] at scanned
      cases scanned
  | ok found =>
      rw [ended] at scanned
      cases scanned
      rfl

/-- A token on the first line of a source that comes from no file. -/
def Token.inLine (kind : Kind) (text : String) (start stop : Nat) : Token :=
  ⟨kind, utf8 text, start - 1, ⟨[], ⟨1, start⟩, ⟨1, stop⟩⟩⟩

theorem derivation_of_parse {file source : Text} {program : Program}
    (accepted : parse file source = .ok program) :
    ∃ derivation : Statements, Spells source derivation.terminals ∧ derivation.Valid ∧
      program.erased = derivation.program := by
  obtain ⟨tokens, scanned, parsed⟩ := parse_eq_ok_iff.mp accepted
  obtain ⟨derivation, derives, admissible, denoted⟩ :=
    derivation_of_parseTokens (tokenize_ended scanned) parsed
  obtain ⟨terminals, spelled, mapped⟩ := spells_of_scan scanned
  have same : terminals = derivation.terminals :=
    List.append_cancel_right (mapped.symm.trans derives.yields)
  refine ⟨derivation, same ▸ spelled, ⟨derives.greedy, admissible.distinct, ?_⟩, denoted⟩
  intro terminal member
  obtain ⟨token, inside, rfl⟩ : ∃ token ∈ tokens, token.terminal = terminal :=
    List.mem_map.mp (derives.yields ▸ List.mem_append_left _ member)
  exact admissible.inRange token inside

theorem parse_of_derivation (file : Text) {source : Text} {derivation : Statements}
    (spelled : Spells source derivation.terminals) (valid : derivation.Valid) :
    ∃ program, parse file source = .ok program ∧ program.erased = derivation.program := by
  obtain ⟨tokens, scanned, mapped⟩ := scan_of_spells file .origin 0 spelled
  have inRange : ∀ token ∈ tokens, token.terminal.InRange := by
    intro token member
    have mem : token.terminal ∈ derivation.terminals ++ [.endOfFile] :=
      mapped ▸ List.mem_map_of_mem member
    rcases List.mem_append.mp mem with inside | last
    · exact valid.inRange _ inside
    · rw [List.mem_singleton.mp last]
      trivial
  obtain ⟨program, parsed, denoted⟩ :=
    parseTokens_of_derivation file (tokenize_ended scanned) ⟨mapped, valid.greedy⟩
      ⟨inRange, valid.distinct⟩
  exact ⟨program, parse_eq_ok_iff.mpr ⟨tokens, scanned, parsed⟩, denoted⟩

end Parlance
