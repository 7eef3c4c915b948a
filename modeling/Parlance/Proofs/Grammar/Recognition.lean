import Parlance.Proofs.Grammar.Uniqueness

namespace Parlance

open Grammar Parlance.Derivation

/-!
Parsing a token list succeeds exactly when the grammar derives it. The reader
of programs sees the tokens in front of the first end of file, and what it
answers is put into a frame that depends on places only.
-/

/-- The tokens in front of the first end of file. -/
def frontTokens (tokens : List Token) : List Token :=
  tokens.takeWhile fun token => token.kind ≠ .endOfFile

theorem readProgram_of_parseTokens {file : Text} {tokens : List Token} {program : Program}
    (accepted : parseTokens file tokens = .ok program) :
    ∃ nodes span, readProgram (endToken file tokens) (frontTokens tokens) = .ok (nodes, []) ∧
      program = ⟨span, some (.mk span nodes)⟩ := by
  unfold parseTokens at accepted
  dsimp only at accepted
  cases read : topLevel (endToken file tokens) (frontTokens tokens) with
  | error error =>
      rw [← frontTokens, read] at accepted
      contradiction
  | ok nodes =>
      rw [← frontTokens, read] at accepted
      cases accepted
      exact ⟨nodes, _, by rw [readProgram, read]; rfl, rfl⟩

theorem parseTokens_of_readProgram {file : Text} {tokens : List Token} {nodes : List Node}
    {rest : List Token}
    (read : readProgram (endToken file tokens) (frontTokens tokens) = .ok (nodes, rest)) :
    ∃ span, parseTokens file tokens = .ok ⟨span, some (.mk span nodes)⟩ := by
  unfold readProgram at read
  cases answered : topLevel (endToken file tokens) (frontTokens tokens) with
  | error error =>
      rw [answered] at read
      contradiction
  | ok others =>
      rw [answered] at read
      cases read
      unfold parseTokens
      dsimp only
      rw [← frontTokens, answered]
      exact ⟨_, rfl⟩

theorem parseTokens_error_iff {file : Text} {tokens : List Token} {error : SyntaxError} :
    parseTokens file tokens = .error error ↔
      readProgram (endToken file tokens) (frontTokens tokens) = .error error := by
  unfold parseTokens readProgram
  dsimp only
  rw [← frontTokens]
  cases topLevel (endToken file tokens) (frontTokens tokens) with
  | error reason => simp [Except.map]
  | ok nodes => simp [Except.map]

/-- The last token is the only end of file. -/
def Ended (tokens : List Token) : Prop :=
  ∃ front stop, tokens = front ++ [stop] ∧ stop.kind = .endOfFile ∧
    ∀ token ∈ front, token.kind ≠ .endOfFile

theorem frontTokens_append_singleton {front : List Token} {last : Token}
    (inside : ∀ token ∈ front, token.kind ≠ .endOfFile) (isEnd : last.kind = .endOfFile) :
    frontTokens (front ++ [last]) = front := by
  unfold frontTokens
  rw [List.takeWhile_append_of_pos (by simpa using inside)]
  simp [isEnd]

theorem Ended.frontTokens_append {tokens : List Token} (ended : Ended tokens) :
    ∃ stop, tokens = frontTokens tokens ++ [stop] ∧ stop.terminal = .endOfFile := by
  obtain ⟨front, stop, rfl, last, inside⟩ := ended
  refine ⟨stop, ?_, by simp [Token.terminal, Terminal.of, last]⟩
  rw [frontTokens_append_singleton inside last]

/-- The terminals of the statements are those in front of the end of file. -/
theorem derives_iff {tokens : List Token} (ended : Ended tokens) (derivation : Statements) :
    Derives derivation tokens ↔
      (frontTokens tokens).map Token.terminal = derivation.terminals ∧
        derivation.Greedy .endOfFile := by
  obtain ⟨stop, whole, last⟩ := ended.frontTokens_append
  constructor
  · rintro ⟨yields, greedy⟩
    rw [whole, List.map_append, List.map_singleton, last] at yields
    exact ⟨List.append_cancel_right yields, greedy⟩
  · rintro ⟨yields, greedy⟩
    refine ⟨?_, greedy⟩
    rw [whole, List.map_append, List.map_singleton, last, yields]

theorem derivation_of_parseTokens {file : Text} {tokens : List Token} {program : Program}
    (ended : Ended tokens) (accepted : parseTokens file tokens = .ok program) :
    ∃ derivation : Statements, Derives derivation tokens ∧ Admissible derivation tokens ∧
      program.erased = derivation.program := by
  obtain ⟨nodes, span, read, rfl⟩ := readProgram_of_parseTokens accepted
  obtain ⟨tree, consumed, greedy, distinct, denoted⟩ := program_sound read
  have yields : (frontTokens tokens).map Token.terminal = tree.terminals := by
    simpa using consumed.whole
  refine ⟨tree, (derives_iff ended tree).mpr ⟨yields, greedy⟩, ⟨?_, distinct⟩, ?_⟩
  · obtain ⟨stop, whole, last⟩ := ended.frontTokens_append
    intro token member
    rw [whole] at member
    rcases List.mem_append.mp member with member | member
    · exact consumed.inRange _ (yields ▸ List.mem_map_of_mem member)
    · rw [List.mem_singleton.mp member, last]
      trivial
  · rw [Statements.program, denoted]
    rfl

theorem parseTokens_of_derivation (file : Text) {tokens : List Token} {derivation : Statements}
    (ended : Ended tokens) (derives : Derives derivation tokens)
    (admissible : Admissible derivation tokens) :
    ∃ program, parseTokens file tokens = .ok program ∧ program.erased = derivation.program := by
  obtain ⟨yields, greedy⟩ := (derives_iff ended derivation).mp derives
  have inRange : ∀ terminal ∈ derivation.terminals, terminal.InRange := by
    intro terminal member
    rw [← yields] at member
    obtain ⟨token, inside, rfl⟩ := List.mem_map.mp member
    exact admissible.inRange token ((List.takeWhile_sublist _).subset inside)
  obtain ⟨nodes, read, denoted⟩ :=
    program_complete (endToken file tokens) derivation yields greedy admissible.distinct inRange
  obtain ⟨span, accepted⟩ := parseTokens_of_readProgram read
  refine ⟨_, accepted, ?_⟩
  rw [Statements.program, ← denoted]
  rfl

theorem derivation_unique {tokens : List Token} {derivation other : Statements}
    (derives : Derives derivation tokens) (derives' : Derives other tokens) :
    derivation = other := by
  have closes : Closes [.endOfFile] := by simp [Closes, Terminal.kind, statementWords, formulaStarts]
  have same := derives.yields.symm.trans derives'.yields
  exact (Statements.unique derivation other same closes closes derives.greedy derives'.greedy).1

/-- A token list with one end of file, at its end, is a program exactly when
the grammar derives it with all numbers in range and no repeated parameter.
There is one derivation, and the program is the one it denotes. -/
theorem parseTokens_recognizes (file : Text) (tokens : List Token) (ended : Ended tokens) :
    ((∃ program, parseTokens file tokens = .ok program) ↔
      ∃ derivation : Statements, Derives derivation tokens ∧ Admissible derivation tokens) ∧
    (∀ derivation other : Statements, Derives derivation tokens → Derives other tokens →
      derivation = other) ∧
    (∀ program derivation, parseTokens file tokens = .ok program → Derives derivation tokens →
      program.erased = derivation.program) := by
  refine ⟨⟨?_, ?_⟩, fun _ _ => derivation_unique, ?_⟩
  · rintro ⟨program, accepted⟩
    obtain ⟨derivation, derives, admissible, _⟩ := derivation_of_parseTokens ended accepted
    exact ⟨derivation, derives, admissible⟩
  · rintro ⟨derivation, derives, admissible⟩
    obtain ⟨program, accepted, _⟩ := parseTokens_of_derivation file ended derives admissible
    exact ⟨program, accepted⟩
  · intro program derivation accepted derives
    obtain ⟨found, foundDerives, _, denoted⟩ := derivation_of_parseTokens ended accepted
    rw [denoted, derivation_unique foundDerives derives]

/-- A name in front of a parenthesis is always called, also where the terminator of a return
could have been left out between them. -/
theorem parseTokens_recognizes_call :
    let token (kind : Kind) (value : Text) : Token := ⟨kind, value, 0, .blank⟩
    let tokens := [token (.keyword .giveBack) (utf8 "TRA"), token .name (utf8 "x"),
      token (.mark .openParen) (utf8 "("), token .number (utf8 "1"),
      token (.mark .closeParen) (utf8 ")"), token .endOfFile []]
    Ended tokens ∧ (∃ program, parseTokens [] tokens = .ok program) ∧
      ∀ program, parseTokens [] tokens = .ok program →
        program.erased = ⟨.blank, some (.mk .blank
          [.giveBack .blank (.call .blank (utf8 "x") [.number .blank 1])])⟩ := by
  intro token tokens
  have ended : Ended tokens := ⟨tokens.dropLast, token .endOfFile [], rfl, rfl, by decide⟩
  let formula (primary : Formula 0) : Formula comparison :=
    .chain (.chain (.chain primary .done) .done) .done
  let derivation : Statements :=
    .cons (.giveBack (formula (.call (utf8 "x") (.some (.last (formula (.number (utf8 "1"))))))) false) .nil
  have greedy : derivation.Greedy .endOfFile := by
    simp [derivation, formula, Statements.Greedy, Statement.Greedy, Formula.Greedy, Links.Greedy,
      Arguments.Greedy, Values.Greedy, Links.terminals, Statements.terminals, terminator, operators,
      Operator.sign]
  have derives : Derives derivation tokens := ⟨rfl, greedy⟩
  have admissible : Admissible derivation tokens := ⟨by decide, trivial, trivial⟩
  obtain ⟨accepts, _, denotes⟩ := parseTokens_recognizes [] tokens ended
  exact ⟨ended, accepts.mpr ⟨derivation, derives, admissible⟩,
    fun program accepted => denotes program derivation accepted derives⟩

end Parlance
