import Parlance.Proofs.Run.Frame

namespace Parlance.Program

open Evaluation

/-!
Calls are isolated and statements fail as a whole.
-/

/-- Whatever the environment, the limits, the outlet and the signal: an expression of a parsed
program leaves every variable and every function as it was, also where it fails inside a call. A
statement that fails changes nothing unless it holds other statements, and a run changes only
variables that the program assigns and functions that it declares outside function bodies. -/
theorem run_isolated {file source : Text} {program : Program}
    (accepted : parse file source = .ok program) :
    (∀ node ∈ program.parts, node.isExpression = true →
      ∀ (limits : Limits) (nesting : Nat) (machine : Machine),
        (final (expression limits (invoke limits nesting) node machine)).environment =
          machine.environment) ∧
    (∀ node ∈ program.parts, isSimple node = true →
      ∀ (limits : Limits) (nesting : Nat) (last : Completion) (machine after : Machine) (halt : Halt),
        Evaluation.statements limits (invoke limits nesting) last [node] machine = .error halt after →
          after.environment = machine.environment) ∧
    ∀ (environment : Environment) (setup : Setup),
      environment.ChangesOnly (Lint.assignedInAll program.statements)
        (Node.functionsOfAll program.statements) (program.run environment setup).environment := by
  have wellFormed := wellFormed_of_parse accepted
  refine ⟨?_, ?_, ?_⟩
  · intro node member isExpression limits nesting machine
    have isFormula := (isPart_of_mem_parts wellFormed node member).isFormula isExpression
    exact (Keeps.ofFormula node isFormula machine).symm
  · intro node member simple limits nesting last machine after halt failed
    rcases isPart_of_mem_parts wellFormed node member with isStatement | ⟨body, rfl, _⟩
    · exact environment_of_failed_step isStatement simple failed
    · contradiction
  · exact run_changesOnly wellFormed

/-- A called function assigns to a variable of its caller, then fails to read one. The caller's
variable is as it was, in the call, in the statement around it and behind the run. -/
theorem run_isolated_failing_call :
    let limits : Limits := ⟨8, 0, 0⟩
    let setup := Setup.standard limits
    ∃ program node halt after,
      parse [] (utf8 "THE f() ME y = 2 IM x = y IM TRA q IM MAY x = 1 IM f() IM") = .ok program ∧
      let report := program.run .empty setup
      let machine := program.start report.environment setup
      report.environment.get? (utf8 "x") = some (.int 1) ∧
      report.environment.get? (utf8 "y") = none ∧
      node ∈ program.parts ∧ node.isExpression = true ∧ isSimple node = true ∧
      (final (expression limits (invoke limits 8) node machine)).environment =
        report.environment ∧
      Evaluation.statements limits (invoke limits 8) (.normal .nothing) [node] machine =
        .error halt after ∧
      after.environment = report.environment := by
  intro limits setup
  let place (start stop : Int) : Span := ⟨[], ⟨1, start⟩, ⟨1, stop⟩⟩
  let assigned (start : Int) (name : String) (value : Node) : Node :=
    .binary (place start (start + 5)) .assign (.reference (place start (start + 1)) (utf8 name)) value
  let node : Node := .call (place 52 55) (utf8 "f") []
  let program : Program := ⟨place 1 58, some (.mk (place 1 58) [
    .declaration (place 1 42) (utf8 "f") [] (some (.mk (place 9 42) [
      assigned 12 "y" (.number (place 16 17) 2),
      assigned 21 "x" (.reference (place 25 26) (utf8 "y")),
      .giveBack (place 30 35) (.reference (place 34 35) (utf8 "q"))])),
    assigned 43 "x" (.number (place 47 48) 1), node])⟩
  have scanned : (tokenize []
      (utf8 "THE f() ME y = 2 IM x = y IM TRA q IM MAY x = 1 IM f() IM")).toOption = some [
      .inLine (.keyword .function) "THE" 1 4, .inLine .name "f" 5 6,
      .inLine (.mark .openParen) "(" 6 7, .inLine (.mark .closeParen) ")" 7 8,
      .inLine (.keyword .openBlock) "ME" 9 11, .inLine .name "y" 12 13,
      .inLine (.mark .assign) "=" 14 15, .inLine .number "2" 16 17,
      .inLine (.keyword .terminator) "IM" 18 20, .inLine .name "x" 21 22,
      .inLine (.mark .assign) "=" 23 24, .inLine .name "y" 25 26,
      .inLine (.keyword .terminator) "IM" 27 29, .inLine (.keyword .giveBack) "TRA" 30 33,
      .inLine .name "q" 34 35, .inLine (.keyword .terminator) "IM" 36 38,
      .inLine (.keyword .closeBlock) "MAY" 39 42, .inLine .name "x" 43 44,
      .inLine (.mark .assign) "=" 45 46, .inLine .number "1" 47 48,
      .inLine (.keyword .terminator) "IM" 49 51, .inLine .name "f" 52 53,
      .inLine (.mark .openParen) "(" 53 54, .inLine (.mark .closeParen) ")" 54 55,
      .inLine (.keyword .terminator) "IM" 56 58, .inLine .endOfFile "" 58 58] := by
    decide +kernel
  have accepted : parse [] (utf8 "THE f() ME y = 2 IM x = y IM TRA q IM MAY x = 1 IM f() IM") =
      .ok program := by
    refine parse_of_tokens scanned ?_
    have one : Text.toInt64? (utf8 "1") = some 1 := by decide
    have two : Text.toInt64? (utf8 "2") = some 2 := by decide
    simp [Token.inLine, parseTokens, Grammar.topLevel, Grammar.statement, Grammar.assignment,
      Grammar.declaration, Grammar.parameters, Grammar.block, Grammar.statements,
      Grammar.terminated, Grammar.selfDelimited, Grammar.formula, Grammar.chain, Grammar.primary,
      Grammar.arguments, Grammar.take, Grammar.operator?, Grammar.joined, Grammar.endToken,
      Span.cover, Node.span, Block.span, one, two, program, node, assigned, place]
  obtain ⟨bound, unassigned, failed⟩ :
      (program.run .empty setup).environment.get? (utf8 "x") = some (.int 1) ∧
        utf8 "y" ∉ Lint.assignedInAll program.statements ∧
        (Report.of program.span (Evaluation.statements limits (invoke limits 8) (.normal .nothing)
          [node] (program.start (program.run .empty setup).environment setup))).outcome.isOk =
            false := by
    decide +kernel
  obtain ⟨keeps, atomic, changes⟩ := run_isolated accepted
  have member : node ∈ program.parts :=
    Node.parts_subset_partsOfAll (.tail _ (.tail _ (.head _))) node.mem_parts
  cases ended : Evaluation.statements limits (invoke limits 8) (.normal .nothing) [node]
      (program.start (program.run .empty setup).environment setup) with
  | ok completion after =>
      rw [ended] at failed
      cases failed
  | error halt after =>
      refine ⟨program, node, halt, after, accepted, bound, ?_, member, rfl, rfl,
        keeps node member rfl limits 8 _, ended,
        atomic node member rfl limits 8 _ _ after halt ended⟩
      rcases (changes .empty setup).bindings (utf8 "y") with same | ⟨assigned, _⟩
      · exact same
      · exact absurd assigned unassigned

end Parlance.Program
