import Parlance.Proofs.Grammar.Lookahead
import Parlance.Proofs.Grammar.Recognition

namespace Parlance

open Grammar

/-!
Syntax errors point at the first offending token: what stands in front of it
begins some program, and nothing that goes on with it is one.
-/

/-- More tokens can be found that make these ones a program. -/
def BeginsProgram (front : List Token) : Prop :=
  ∃ more : List Token, (∀ token ∈ more, token.kind ≠ .endOfFile) ∧
    ∀ file stop, stop.kind = .endOfFile →
      ∃ program, parseTokens file (front ++ more ++ [stop]) = .ok program

/-- A token of the terminal, at no place. -/
def Terminal.unplaced (terminal : Terminal) : Token :=
  ⟨terminal.kind, terminal.spelling, 0, .blank⟩

theorem Terminal.terminal_unplaced (terminal : Terminal) : terminal.unplaced.terminal = terminal := by
  cases terminal <;> rfl

theorem Terminal.Sound.kind_ne {terminal : Terminal} (sound : terminal.Sound) :
    terminal.kind ≠ .endOfFile := by
  cases terminal with
  | endOfFile => exact sound.1.elim
  | _ => simp [Terminal.kind]

section Programs

variable {stop : Token} {tokens : List Token}

theorem beginsProgram_of_read (inside : ∀ token ∈ tokens, token.kind ≠ .endOfFile)
    (more : List Token) (moreInside : ∀ token ∈ more, token.kind ≠ .endOfFile)
    (reads : ∀ stop, ∃ nodes rest, readProgram stop (tokens ++ more) = .ok (nodes, rest)) :
    BeginsProgram tokens := by
  refine ⟨more, moreInside, fun file stop isEnd => ?_⟩
  have upToEnd : frontTokens (tokens ++ more ++ [stop]) = tokens ++ more :=
    frontTokens_append_singleton (List.forall_mem_append.mpr ⟨inside, moreInside⟩) isEnd
  obtain ⟨nodes, rest, read⟩ := reads (endToken file (tokens ++ more ++ [stop]))
  obtain ⟨span, parsed⟩ := parseTokens_of_readProgram ((congrArg _ upToEnd).trans read)
  exact ⟨_, parsed⟩

theorem beginsProgram_of_ok (inside : ∀ token ∈ tokens, token.kind ≠ .endOfFile)
    {nodes : List Node} {rest : List Token}
    (accepted : readProgram stop tokens = .ok (nodes, rest)) : BeginsProgram tokens := by
  obtain ⟨taken, rfl, reads⟩ := (readProgram_local tokens).accepted accepted
  exact beginsProgram_of_read inside [] (List.forall_mem_nil _) fun stop' =>
    ⟨nodes, rest, by rw [List.append_nil]; exact reads stop' rest rfl⟩

theorem beginsProgram_of_end (inside : ∀ token ∈ tokens, token.kind ≠ .endOfFile)
    {error : SyntaxError} (refused : readProgram stop tokens = .error error)
    (atEnd : error.atEnd = true) : BeginsProgram tokens := by
  obtain ⟨suffix, sound, completes⟩ := readProgram_completed inside refused atEnd
  have written : (suffix.map Terminal.unplaced).map Token.terminal = suffix := by
    rw [List.map_map, List.map_congr_left fun terminal _ => terminal.terminal_unplaced, List.map_id']
  refine beginsProgram_of_read inside (suffix.map Terminal.unplaced) ?_ fun stop' => ?_
  · intro token member
    obtain ⟨terminal, used, rfl⟩ := List.mem_map.mp member
    exact (sound terminal used).kind_ne
  · obtain ⟨nodes, read⟩ := completes stop' _ written
    exact ⟨nodes, [], read⟩

/-- An objection can be placed so that what stands in front of it is faultless. -/
theorem readProgram_objection {error : SyntaxError} (isEnd : stop.kind = .endOfFile)
    (inside : ∀ token ∈ tokens, token.kind ≠ .endOfFile)
    (refused : readProgram stop tokens = .error error) (real : error.atEnd = false) :
    ∃ front behind, tokens = front ++ error.token :: behind ∧ BeginsProgram front ∧
      ∀ stop' more, readProgram stop' (front ++ error.token :: more) = .error error := by
  induction length : tokens.length using Nat.strongRecOn generalizing tokens with
  | _ size inductionHypothesis =>
      subst length
      rcases (readProgram_local tokens).refused refused with atStop | ⟨front, behind, rfl, reads⟩
      · simp [SyntaxError.atEnd, atStop, isEnd] at real
      have frontInside := (List.forall_mem_append.mp inside).1
      cases answered : readProgram stop front with
      | ok answer => exact ⟨front, behind, rfl, beginsProgram_of_ok frontInside answered, reads⟩
      | error other =>
          cases ended : other.atEnd with
          | true => exact ⟨front, behind, rfl, beginsProgram_of_end frontInside answered ended, reads⟩
          | false =>
              -- The same objection is made further in front, where it can be placed.
              have again := readProgram_refused isEnd answered ended stop (error.token :: behind)
              cases again.symm.trans refused
              have fewer : front.length < (front ++ error.token :: behind).length := by
                rw [List.length_append, List.length_cons]
                omega
              obtain ⟨first, others, rfl, begins, reads'⟩ :=
                inductionHypothesis _ fewer frontInside answered rfl
              exact ⟨first, others ++ error.token :: behind, by simp, begins, reads'⟩

end Programs

theorem endToken_append_singleton (file : Text) {tokens : List Token} {stop : Token}
    (inside : ∀ token ∈ tokens, token.kind ≠ .endOfFile) (isEnd : stop.kind = .endOfFile) :
    endToken file (tokens ++ [stop]) = stop := by
  have found : (tokens ++ [stop]).find? (fun token => token.kind = .endOfFile) = some stop := by
    rw [List.find?_append, List.find?_eq_none.mpr (by simpa using inside)]
    simp [isEnd]
  unfold endToken
  rw [found]

/-- A refused token list has a first offending token, which the error names.
The tokens in front of it begin a program; and if it is not the end of file, no
list that goes on from it is a program, and each is refused with the same error. -/
theorem parseTokens_first_fault {file : Text} {tokens : List Token} {stop : Token}
    {error : SyntaxError} (inside : ∀ token ∈ tokens, token.kind ≠ .endOfFile)
    (isEnd : stop.kind = .endOfFile)
    (refused : parseTokens file (tokens ++ [stop]) = .error error) :
    ∃ index, (tokens ++ [stop])[index]? = some error.token ∧ BeginsProgram (tokens.take index) ∧
      (index < tokens.length → ∀ file' more,
        parseTokens file' (tokens.take (index + 1) ++ more) = .error error) := by
  rw [parseTokens_error_iff, endToken_append_singleton file inside isEnd,
    frontTokens_append_singleton inside isEnd] at refused
  cases ended : error.atEnd with
  | true =>
      have isLast : error.token = stop := by
        rcases (readProgram_local tokens).refused refused with atStop | ⟨front, behind, rfl, _⟩
        · exact atStop
        · exact absurd (by simpa [SyntaxError.atEnd] using ended) (inside error.token (by simp))
      refine ⟨tokens.length, by simp [isLast], ?_, fun less => absurd less (Nat.lt_irrefl _)⟩
      rw [List.take_length]
      exact beginsProgram_of_end inside refused ended
  | false =>
      obtain ⟨front, behind, rfl, begins, reads⟩ := readProgram_objection isEnd inside refused ended
      have whole : front ++ error.token :: behind = front ++ [error.token] ++ behind :=
        (List.append_assoc front [error.token] behind).symm
      have upToFault : (front ++ error.token :: behind).take (front.length + 1) =
          front ++ [error.token] := by
        rw [whole]
        exact List.take_left' (by simp)
      refine ⟨front.length, by simp, by simpa using begins, fun _ file' more => ?_⟩
      have solid : ∀ token ∈ front ++ [error.token], token.kind ≠ .endOfFile := by
        rw [whole] at inside
        exact (List.forall_mem_append.mp inside).1
      rw [upToFault, parseTokens_error_iff, frontTokens,
        List.takeWhile_append_of_pos (by simpa using solid)]
      generalize endToken file' _ = last
      rw [List.append_assoc]
      exact reads last _

/-- A parameter that is declared twice is the first fault, not the missing body behind it. -/
theorem parseTokens_first_fault_duplicate :
    let token (kind : Kind) (value : Text) (offset : Nat) : Token := ⟨kind, value, offset, .blank⟩
    let tokens := [token (.keyword .function) (utf8 "THE") 0, token .name (utf8 "f") 4,
      token (.mark .openParen) (utf8 "(") 5, token .name (utf8 "a") 6,
      token (.mark .comma) (utf8 ",") 7, token .name (utf8 "a") 8,
      token (.mark .closeParen) (utf8 ")") 9, token (.keyword .terminator) (utf8 "IM") 11]
    let stop := token .endOfFile [] 13
    let error : SyntaxError :=
      ⟨token .name (utf8 "a") 8, .duplicateParameter (utf8 "a") (utf8 "f")⟩
    (∀ token ∈ tokens, token.kind ≠ .endOfFile) ∧
      parseTokens [] (tokens ++ [stop]) = .error error ∧
      ∃ index, (tokens ++ [stop])[index]? = some error.token ∧ BeginsProgram (tokens.take index) ∧
        (index < tokens.length → ∀ file more,
          parseTokens file (tokens.take (index + 1) ++ more) = .error error) := by
  intro token tokens stop error
  have inside : ∀ token ∈ tokens, token.kind ≠ .endOfFile := by decide
  have refused : parseTokens [] (tokens ++ [stop]) = .error error := by
    rw [parseTokens_error_iff, frontTokens_append_singleton inside rfl]
    simp only [tokens, token, readProgram_cons, readStatement_declaration, readDeclaration_eq,
      readToken_cons, readParameters_cons, readNames_cons, Answer.andThen_ok, Answer.andThen_error,
      reduceCtorEq, if_true, if_false, List.mem_cons, List.not_mem_nil, or_false,
      Kind.mark.injEq, error]
  exact ⟨inside, refused, parseTokens_first_fault inside rfl refused⟩

end Parlance
