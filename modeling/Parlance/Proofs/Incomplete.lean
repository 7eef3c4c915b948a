import Parlance.Proofs.Grammar.Completion
import Parlance.Proofs.Scanning.Newline
import Parlance.Proofs.Source

namespace Parlance

open Grammar Scanner

/-!
A source text is incomplete exactly when it is no program yet and further
lines can make it one. Scanning is compositional at newlines, so further lines
add tokens in front of the end of file, and what more tokens change is known of
the readers.
-/

/-- The token at the end of file has its kind, whatever the list. -/
theorem kind_endToken (file : Text) (tokens : List Token) :
    (endToken file tokens).kind = .endOfFile := by
  unfold endToken
  split
  · next token found => simpa using List.find?_some found
  · split <;> rfl

theorem parse_eq_error_iff {file source : Text} {error : SourceError} :
    parse file source = .error error ↔
      (∃ reason, tokenize file source = .error reason ∧ error = .scan reason) ∨
      ∃ tokens reason, tokenize file source = .ok tokens ∧
        parseTokens file tokens = .error reason ∧ error = .grammar reason := by
  unfold parse
  cases tokenize file source with
  | error reason => simp [eq_comm]
  | ok tokens => cases parsed : parseTokens file tokens <;> simp [parsed, eq_comm]

section Lines

variable {file source : Text} {front : List Token} {last : Token}

/-- Further lines put their tokens behind those in front of the end of file. -/
theorem tokenize_newline (scanned : tokenize file source = .ok (front ++ [last])) (more : Text) :
    ∃ position offset, tokenize file (source ++ Text.newline :: more) =
      (scan file position offset more).map (front ++ ·) :=
  ⟨_, _, scan_newline_of_ok more scanned⟩

/-- A source text that is faulty for another reason than its end stays so. -/
theorem parse_newline_of_error {error : SourceError} (refused : parse file source = .error error)
    (final : error.incomplete = false) (more : Text) (program : Program) :
    parse file (source ++ Text.newline :: more) ≠ .ok program := by
  intro accepted
  obtain ⟨allTokens, scanned', parsed'⟩ := parse_eq_ok_iff.mp accepted
  rcases parse_eq_error_iff.mp refused with ⟨reason, failed, rfl⟩ | ⟨tokens, reason, scanned, failed, rfl⟩
  · rw [tokenize, scan_newline_of_error more failed] at scanned'
    contradiction
  · obtain ⟨front, last, rfl, isEnd, inside⟩ := tokenize_ended scanned
    obtain ⟨position, offset, together⟩ := tokenize_newline scanned more
    rw [together] at scanned'
    cases behind : scan file position offset more with
    | error fault =>
        rw [behind] at scanned'
        contradiction
    | ok others =>
        rw [behind] at scanned'
        cases scanned'
        rw [parseTokens_error_iff, frontTokens_append_singleton inside isEnd] at failed
        obtain ⟨nodes, span, read, _⟩ := readProgram_of_parseTokens parsed'
        have front' : frontTokens (front ++ others) = front ++ frontTokens others :=
          List.takeWhile_append_of_pos (by simpa using inside)
        rw [front', readProgram_refused (kind_endToken ..) failed final] at read
        contradiction

/-- Lines can be found that complete a source text which ended too early. -/
theorem parse_newline_of_incomplete {error : SourceError}
    (refused : parse file source = .error error) (incomplete : error.incomplete = true) :
    ∃ more program, parse file (source ++ Text.newline :: more) = .ok program := by
  rcases parse_eq_error_iff.mp refused with ⟨reason, failed, rfl⟩ | ⟨tokens, reason, scanned, failed, rfl⟩
  · contradiction
  · obtain ⟨front, last, rfl, isEnd, inside⟩ := tokenize_ended scanned
    rw [parseTokens_error_iff, frontTokens_append_singleton inside isEnd] at failed
    obtain ⟨suffix, sound, completes⟩ := readProgram_completed inside failed incomplete
    have spelled := spells_written fun terminal member => (sound terminal member).1
    obtain ⟨position, offset, together⟩ := tokenize_newline scanned (written suffix)
    obtain ⟨others, scanned', mapped⟩ := scan_of_spells file position offset spelled
    rw [scanned'] at together
    obtain ⟨added, back, rfl, addedMapped, backMapped⟩ := List.map_eq_append_iff.mp mapped
    obtain ⟨stop, rfl, isStop⟩ : ∃ stop, back = [stop] ∧ stop.terminal = .endOfFile := by
      simpa [List.map_eq_cons_iff] using backMapped
    have isStop' : stop.kind = .endOfFile := Token.kind_of_terminal isStop
    have addedInside : ∀ token ∈ added, token.kind ≠ .endOfFile := by
      intro token member isEnd'
      have form := (sound token.terminal (addedMapped ▸ List.mem_map_of_mem member)).1
      simp [Token.terminal, Terminal.of, isEnd', Terminal.Spellable] at form
    have front' : frontTokens (front ++ (added ++ [stop])) = front ++ added := by
      rw [← List.append_assoc]
      refine frontTokens_append_singleton (fun token member => ?_) isStop'
      rcases List.mem_append.mp member with member | member
      · exact inside token member
      · exact addedInside token member
    obtain ⟨nodes, read⟩ :=
      completes (endToken file (front ++ (added ++ [stop]))) added addedMapped
    rw [← front'] at read
    obtain ⟨span, parsed⟩ := parseTokens_of_readProgram read
    exact ⟨written suffix, _, parse_eq_ok_iff.mpr ⟨_, together, parsed⟩⟩

end Lines

/-- A text is reported incomplete exactly when it is no program and some further lines make it
one; a text refused otherwise is no beginning of a program, whatever lines follow. -/
theorem incomplete_iff_completable (file source : Text) :
    ((∃ error, parse file source = .error error ∧ error.incomplete = true) ↔
      (¬ ∃ program, parse file source = .ok program) ∧
        ∃ more program, parse file (source ++ Text.newline :: more) = .ok program) ∧
    ∀ error, parse file source = .error error → error.incomplete = false →
      ∀ more, ¬ ∃ program, parse file (source ++ Text.newline :: more) = .ok program := by
  refine ⟨⟨?_, ?_⟩, ?_⟩
  · rintro ⟨error, refused, incomplete⟩
    refine ⟨?_, parse_newline_of_incomplete refused incomplete⟩
    rintro ⟨program, accepted⟩
    rw [refused] at accepted
    contradiction
  · rintro ⟨noProgram, more, program, accepted⟩
    cases answered : parse file source with
    | ok program => exact absurd ⟨program, answered⟩ noProgram
    | error error =>
        refine ⟨error, rfl, ?_⟩
        cases reported : error.incomplete with
        | true => rfl
        | false => exact absurd accepted (parse_newline_of_error answered reported more program)
  · rintro error refused final more ⟨program, accepted⟩
    exact parse_newline_of_error refused final more program accepted

end Parlance
