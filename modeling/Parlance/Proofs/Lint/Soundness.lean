import Parlance.Proofs.Lint.Findings

namespace Parlance

open Evaluation

/-!
Warnings and runs. What is reported about a program is held against its run from
an empty environment.
-/

namespace Lint

theorem call_reported {declared : List (Text × Nat)} {span : Span} {name : Text} {given : Nat}
    {found : Diagnostic} (reported : found ∈ call ⟨declared, .none⟩ span name given) :
    found.span = some span ∧ (name, given) ∉ declared ∧
      (found.code = Code.unknownFunction.text → ∀ arity, (name, arity) ∉ declared) ∧
      (found.code = Code.unknownFunction.text ∨ found.code = Code.callArity.text) := by
  have differ : Code.callArity.text ≠ Code.unknownFunction.text := by decide
  unfold call at reported
  split at reported
  · next none =>
      have undeclared (arity : Nat) : (name, arity) ∉ declared := by
        rw [← mem_arities, none]
        exact List.not_mem_nil
      rw [List.mem_singleton.mp reported]
      exact ⟨rfl, undeclared given, fun _ => undeclared, .inl rfl⟩
  · split at reported
    · cases reported
    · next refused =>
        rw [List.mem_singleton.mp reported]
        exact ⟨rfl, fun inside => refused (mem_arities.mpr inside), fun same => absurd same differ,
          .inr rfl⟩

end Lint

namespace Program

variable {program : Program} {setup : Setup}

/-- A call finds no function, or one with another number of parameters, where
the program declares none that fits. -/
theorem fails_of_undeclared (wellFormed : program.WellFormed) {callers : List Function}
    {nesting : Nat} {span : Span} {name : Text} {nodes : List Node} {machine : Machine}
    (confined : Visit.Confined program callers
      ⟨nesting, .expression (.call span name nodes), machine⟩)
    (undeclared : (name, nodes.length) ∉ Lint.declaredInAll program.statements)
    (limits : Limits) :
    ∃ reason : Fault, reason.span = some span ∧
      ((∀ arity, (name, arity) ∉ Lint.declaredInAll program.statements) →
        reason.code = .undefinedFunction) ∧
      (reason.code = .arity ∨ reason.code = .undefinedFunction) ∧
      expression limits (invoke limits nesting) (.call span name nodes) machine =
        .error (.fault reason) machine := by
  rw [expression_call]
  cases found : machine.environment.function? name with
  | none =>
      rw [resolve_of_none span _ found]
      exact ⟨_, rfl, fun _ => rfl, .inr rfl, rfl⟩
  | some function =>
      obtain ⟨place, declaration⟩ := confined.environment.functions name function found
      have declared := mem_declared wellFormed declaration
      rw [resolve_of_some span _ found, if_neg]
      · exact ⟨_, rfl, fun never => absurd declared (never _), .inl rfl, rfl⟩
      · intro matching
        exact undeclared (matching ▸ declared)

theorem reported_call {found : Diagnostic} (reported : found ∈ program.lint .none)
    (aboutCall : found.code = Code.unknownFunction.text ∨ found.code = Code.callArity.text) :
    ∃ span name nodes, found.span = some span ∧ .call span name nodes ∈ program.parts ∧
      (name, nodes.length) ∉ Lint.declaredInAll program.statements ∧
      (found.code = Code.unknownFunction.text →
        ∀ arity, (name, arity) ∉ Lint.declaredInAll program.statements) := by
  cases finding_of_lint reported with
  | call member reported =>
      obtain ⟨place, undeclared, unknown, _⟩ := Lint.call_reported reported
      exact ⟨_, _, _, place, mem_parts_of_mem_scopes member, undeclared, unknown⟩
  | read _ reported =>
      rw [reported] at aboutCall
      exact absurd aboutCall
        (by decide : ¬ (Code.unboundVariable.text = _ ∨ Code.unboundVariable.text = _))
  | behindReturn reported =>
      rw [reported] at aboutCall
      exact absurd aboutCall
        (by decide : ¬ (Code.unreachable.text = _ ∨ Code.unreachable.text = _))

theorem reported_read {found : Diagnostic} (reported : found ∈ program.lint .none)
    (aboutRead : found.code = Code.unboundVariable.text) :
    ∃ functions span name, found = Lint.unbound span name ∧
      (functions, .reference span name) ∈ program.scopes ∧
      name ∉ Lint.assignedInAll program.statements ∧
      ∀ function ∈ functions, name ∉ function.names := by
  cases finding_of_lint reported with
  | call _ reported =>
      obtain ⟨_, _, _, codes⟩ := Lint.call_reported reported
      rw [aboutRead] at codes
      exact absurd codes
        (by decide : ¬ (Code.unboundVariable.text = _ ∨ Code.unboundVariable.text = _))
  | read member reported unassigned hidden => exact ⟨_, _, _, reported, member, unassigned, hidden⟩
  | behindReturn reported =>
      rw [reported] at aboutRead
      exact absurd aboutRead (by decide : ¬ Code.unreachable.text = _)

/-- A reported call is never entered: no event of the run tells of its start, and wherever the run
comes to it the call fails, and the run with it. The fault is that of an undefined function, or of
the number of arguments where the report is about that. -/
theorem run_never_enters_reported {file source : Text} {found : Diagnostic}
    (accepted : parse file source = .ok program) (reported : found ∈ program.lint .none)
    (aboutCall : found.code = Code.unknownFunction.text ∨ found.code = Code.callArity.text)
    (setup : Setup) :
    ∃ span name nodes, found.span = some span ∧ .call span name nodes ∈ program.parts ∧
      (∀ function depth, .callStart span function depth ∉ (program.run .empty setup).events) ∧
      ∀ nesting name' nodes' machine,
        Visits setup.limits (program.visit .empty setup)
          ⟨nesting, .expression (.call span name' nodes'), machine⟩ →
        ∃ reason : Fault, reason.span = some span ∧
          (found.code = Code.unknownFunction.text → reason.code = .undefinedFunction) ∧
          (found.code = Code.callArity.text →
            reason.code = .arity ∨ reason.code = .undefinedFunction) ∧
          expression setup.limits (invoke setup.limits nesting) (.call span name' nodes') machine =
            .error (.fault reason) machine ∧
          (program.run .empty setup).outcome = .error (.fault reason) := by
  have wellFormed := wellFormed_of_parse accepted
  obtain ⟨span, name, nodes, place, member, undeclared, unknown⟩ := reported_call reported aboutCall
  -- The call that is reported and a call with its span that is taken up are one and the same.
  have reached {nesting : Nat} {name' : Text} {nodes' : List Node} {machine : Machine}
      (visits : Visits setup.limits (program.visit .empty setup)
        ⟨nesting, .expression (.call span name' nodes'), machine⟩) :
      name' = name ∧ nodes' = nodes ∧ ∃ callers,
        Visit.Confined program callers ⟨nesting, .expression (.call span name' nodes'), machine⟩ := by
    obtain ⟨callers, path⟩ := visits.exists_path
    have confined := confined_of_path wellFormed path
    have same := eq_of_span_eq accepted confined.task member rfl rfl rfl
    cases same
    exact ⟨rfl, rfl, callers, confined⟩
  refine ⟨span, name, nodes, place, member, ?_, ?_⟩
  · intro function depth recorded
    obtain ⟨nesting, nodes', machine, called, visits, found, matching⟩ :=
      calls_of_mem_events recorded
    obtain ⟨rfl, rfl, callers, confined⟩ := reached visits
    obtain ⟨_, declaration⟩ := confined.environment.functions _ called found
    exact undeclared (matching ▸ mem_declared wellFormed declaration)
  · intro nesting name' nodes' machine visits
    obtain ⟨rfl, rfl, callers, confined⟩ := reached visits
    obtain ⟨reason, located, never, codes, failed⟩ :=
      fails_of_undeclared wellFormed confined undeclared setup.limits
    exact ⟨reason, located, fun isUnknown => never (unknown isUnknown), fun _ => codes, failed,
      outcome_of_fails visits failed⟩

/-- The only declaration of the function comes with another number of parameters. -/
theorem run_never_enters_reported_arity :
    let span : Span := ⟨[], ⟨1, 22⟩, ⟨1, 26⟩⟩
    let body : Block := .mk ⟨[], ⟨1, 9⟩, ⟨1, 21⟩⟩
      [.giveBack ⟨[], ⟨1, 12⟩, ⟨1, 17⟩⟩ (.number ⟨[], ⟨1, 16⟩, ⟨1, 17⟩⟩ 1)]
    let program : Program := ⟨⟨[], ⟨1, 1⟩, ⟨1, 29⟩⟩, some (.mk ⟨[], ⟨1, 1⟩, ⟨1, 29⟩⟩ [
      .declaration ⟨[], ⟨1, 1⟩, ⟨1, 21⟩⟩ (utf8 "f") [] (some body),
      .call span (utf8 "f") [.number ⟨[], ⟨1, 24⟩, ⟨1, 25⟩⟩ 2]])⟩
    let setup := Setup.standard ⟨8, 0, 0⟩
    let found := Lint.arityWarning span (utf8 "f") 1 (utf8 "0")
    parse [] (utf8 "THE f() ME TRA 1 MAY f(2) IM") = .ok program ∧
      found ∈ program.lint .none ∧ found.code = Code.callArity.text ∧
      (∀ function depth, .callStart span function depth ∉ (program.run .empty setup).events) ∧
      ∃ reason : Fault, (reason.code = .arity ∨ reason.code = .undefinedFunction) ∧
        (program.run .empty setup).outcome = .error (.fault reason) := by
  intro span body program setup found
  have scanned : (tokenize [] (utf8 "THE f() ME TRA 1 MAY f(2) IM")).toOption = some [
      .inLine (.keyword .function) "THE" 1 4, .inLine .name "f" 5 6,
      .inLine (.mark .openParen) "(" 6 7, .inLine (.mark .closeParen) ")" 7 8,
      .inLine (.keyword .openBlock) "ME" 9 11, .inLine (.keyword .giveBack) "TRA" 12 15,
      .inLine .number "1" 16 17, .inLine (.keyword .closeBlock) "MAY" 18 21,
      .inLine .name "f" 22 23, .inLine (.mark .openParen) "(" 23 24, .inLine .number "2" 24 25,
      .inLine (.mark .closeParen) ")" 25 26, .inLine (.keyword .terminator) "IM" 27 29,
      .inLine .endOfFile "" 29 29] := by
    decide +kernel
  have accepted : parse [] (utf8 "THE f() ME TRA 1 MAY f(2) IM") = .ok program := by
    refine parse_of_tokens scanned ?_
    have one : Text.toInt64? (utf8 "1") = some 1 := by decide
    have two : Text.toInt64? (utf8 "2") = some 2 := by decide
    simp [Token.inLine, parseTokens, Grammar.topLevel, Grammar.statement, Grammar.assignment,
      Grammar.declaration, Grammar.parameters, Grammar.block, Grammar.statements,
      Grammar.terminated, Grammar.selfDelimited, Grammar.formula, Grammar.chain, Grammar.primary,
      Grammar.arguments, Grammar.argumentList, Grammar.take, Grammar.operator?, Grammar.endToken,
      Span.cover, Node.span, Block.span, one, two, program, body, span]
  have reported : found ∈ program.lint .none := by decide +kernel
  obtain ⟨place, name, nodes, located, _, never, fails⟩ :=
    run_never_enters_reported accepted reported (.inr rfl) setup
  cases located
  have visits : Visits setup.limits (program.visit .empty setup)
      ⟨8, .expression (.call span (utf8 "f") [.number ⟨[], ⟨1, 24⟩, ⟨1, 25⟩⟩ 2]), _⟩ :=
    .part .inside (.part (.next rfl rfl rfl rfl)
      (.part (.first rfl rfl) (.part (.formula rfl) .here)))
  obtain ⟨reason, _, _, codes, _, ended⟩ := fails _ _ _ _ visits
  exact ⟨accepted, reported, rfl, never, reason, codes rfl, ended⟩

/-- Wherever the run comes to a reported read, the read fails, and the run with it, as long as no
function binds the name that does not stand around the read and whose call is open. A function
around the read never binds it. -/
theorem run_reported_read {file source : Text} {found : Diagnostic}
    (accepted : parse file source = .ok program) (reported : found ∈ program.lint .none)
    (aboutRead : found.code = Code.unboundVariable.text) (setup : Setup) :
    ∃ span name, found = Lint.unbound span name ∧ .reference span name ∈ program.parts ∧
      ∀ callers nesting name' machine,
        Path setup.limits (program.visit .empty setup) callers
          ⟨nesting, .expression (.reference span name'), machine⟩ →
        (∀ function ∈ callers, name' ∈ function.names →
          .reference span name' ∈ Block.partsOfOption function.body) →
        name' = name ∧
          expression setup.limits (invoke setup.limits nesting) (.reference span name') machine =
            .error (.fault ⟨.undefinedVariable name, some span⟩) machine ∧
          (program.run .empty setup).outcome =
            .error (.fault ⟨.undefinedVariable name, some span⟩) := by
  have wellFormed := wellFormed_of_parse accepted
  obtain ⟨functions, span, name, rfl, inScope, unassigned, hidden⟩ :=
    reported_read reported aboutRead
  have member := mem_parts_of_mem_scopes inScope
  refine ⟨span, name, rfl, member, ?_⟩
  intro callers nesting name' machine path elsewhere
  have confined := confined_of_path wellFormed path
  have same := eq_of_span_eq accepted confined.task member rfl rfl rfl
  cases same
  have missing : machine.environment.get? name = none := by
    cases bound : machine.environment.get? name with
    | none => rfl
    | some value =>
        rcases confined.environment.bindings name (by rw [bound]; rfl) with assigned | binds
        · exact absurd assigned unassigned
        · obtain ⟨function, isCaller, inside⟩ := binds
          -- A function that binds the name would stand around the read.
          obtain ⟨_, declared, declaration⟩ := confined.callers function isCaller
          obtain ⟨functions', inScope', around⟩ :=
            exists_scope_of_body declaration (elsewhere function isCaller inside)
          cases scopes_unique accepted rfl inScope inScope'
          exact (hidden _ around inside).elim
  have failed := Machine.lookup_of_none span missing
  exact ⟨rfl, failed, outcome_of_fails path.visits failed⟩

/-- A function that is called from outside all functions reads a name that nothing assigns. -/
theorem run_reported_read_outermost :
    let span : Span := ⟨[], ⟨1, 16⟩, ⟨1, 17⟩⟩
    let body : Block := .mk ⟨[], ⟨1, 9⟩, ⟨1, 21⟩⟩
      [.giveBack ⟨[], ⟨1, 12⟩, ⟨1, 17⟩⟩ (.reference span (utf8 "x"))]
    let program : Program := ⟨⟨[], ⟨1, 1⟩, ⟨1, 28⟩⟩, some (.mk ⟨[], ⟨1, 1⟩, ⟨1, 28⟩⟩ [
      .declaration ⟨[], ⟨1, 1⟩, ⟨1, 21⟩⟩ (utf8 "g") [] (some body),
      .call ⟨[], ⟨1, 22⟩, ⟨1, 25⟩⟩ (utf8 "g") []])⟩
    let setup := Setup.standard ⟨8, 0, 0⟩
    parse [] (utf8 "THE g() ME TRA x MAY g() IM") = .ok program ∧
      Lint.unbound span (utf8 "x") ∈ program.lint .none ∧
      (∃ machine, Path setup.limits (program.visit .empty setup) [⟨utf8 "g", [], some body⟩]
        ⟨7, .expression (.reference span (utf8 "x")), machine⟩) ∧
      (program.run .empty setup).outcome =
        .error (.fault ⟨.undefinedVariable (utf8 "x"), some span⟩) := by
  intro span body program setup
  have scanned : (tokenize [] (utf8 "THE g() ME TRA x MAY g() IM")).toOption = some [
      .inLine (.keyword .function) "THE" 1 4, .inLine .name "g" 5 6,
      .inLine (.mark .openParen) "(" 6 7, .inLine (.mark .closeParen) ")" 7 8,
      .inLine (.keyword .openBlock) "ME" 9 11, .inLine (.keyword .giveBack) "TRA" 12 15,
      .inLine .name "x" 16 17, .inLine (.keyword .closeBlock) "MAY" 18 21, .inLine .name "g" 22 23,
      .inLine (.mark .openParen) "(" 23 24, .inLine (.mark .closeParen) ")" 24 25,
      .inLine (.keyword .terminator) "IM" 26 28, .inLine .endOfFile "" 28 28] := by
    decide +kernel
  have accepted : parse [] (utf8 "THE g() ME TRA x MAY g() IM") = .ok program := by
    refine parse_of_tokens scanned ?_
    simp [Token.inLine, parseTokens, Grammar.topLevel, Grammar.statement, Grammar.assignment,
      Grammar.declaration, Grammar.parameters, Grammar.block, Grammar.statements,
      Grammar.terminated, Grammar.selfDelimited, Grammar.formula, Grammar.chain, Grammar.primary,
      Grammar.arguments, Grammar.take, Grammar.operator?, Grammar.endToken, Span.cover, Node.span,
      Block.span, program, body, span]
  have reported : Lint.unbound span (utf8 "x") ∈ program.lint .none := by decide +kernel
  have path : ∃ machine, Path setup.limits (program.visit .empty setup)
      [⟨utf8 "g", [], some body⟩] ⟨7, .expression (.reference span (utf8 "x")), machine⟩ := by
    rw [show program.visit .empty setup =
      ⟨7 + 1, .body program.body, program.start .empty setup⟩ from rfl]
    apply Exists.intro
    refine .part .inside (.part (.next rfl rfl rfl rfl) (.part (.first rfl rfl)
      (.part (.formula rfl) ?_)))
    refine .part (.called rfl rfl rfl rfl) ?_
    exact .part .invoked (.part .inside (.part (.first rfl rfl) (.part .given .here)))
  obtain ⟨place, name, same, _, fails⟩ := run_reported_read accepted reported rfl setup
  cases congrArg Diagnostic.span same
  obtain ⟨machine, reached⟩ := path
  have free : utf8 "x" ∉ Function.names ⟨utf8 "g", [], some body⟩ := by decide
  obtain ⟨rfl, _, ended⟩ := fails _ _ _ _ reached
    (List.forall_mem_singleton.mpr fun inside => absurd inside free)
  exact ⟨accepted, reported, ⟨machine, reached⟩, ended⟩

/-- The same function called by one that assigns the name: the read is reported, is evaluated and
succeeds, and so does the run. -/
theorem run_reported_read_succeeds :
    let span : Span := ⟨[], ⟨1, 16⟩, ⟨1, 17⟩⟩
    let reading : Block := .mk ⟨[], ⟨1, 9⟩, ⟨1, 21⟩⟩
      [.giveBack ⟨[], ⟨1, 12⟩, ⟨1, 17⟩⟩ (.reference span (utf8 "x"))]
    let assigning : Block := .mk ⟨[], ⟨1, 30⟩, ⟨1, 53⟩⟩ [
      .binary ⟨[], ⟨1, 33⟩, ⟨1, 38⟩⟩ .assign (.reference ⟨[], ⟨1, 33⟩, ⟨1, 34⟩⟩ (utf8 "x"))
        (.number ⟨[], ⟨1, 37⟩, ⟨1, 38⟩⟩ 1),
      .giveBack ⟨[], ⟨1, 42⟩, ⟨1, 49⟩⟩ (.call ⟨[], ⟨1, 46⟩, ⟨1, 49⟩⟩ (utf8 "g") [])]
    let program : Program := ⟨⟨[], ⟨1, 1⟩, ⟨1, 60⟩⟩, some (.mk ⟨[], ⟨1, 1⟩, ⟨1, 60⟩⟩ [
      .declaration ⟨[], ⟨1, 1⟩, ⟨1, 21⟩⟩ (utf8 "g") [] (some reading),
      .declaration ⟨[], ⟨1, 22⟩, ⟨1, 53⟩⟩ (utf8 "f") [] (some assigning),
      .call ⟨[], ⟨1, 54⟩, ⟨1, 57⟩⟩ (utf8 "f") []])⟩
    let setup := Setup.standard ⟨8, 0, 0⟩
    parse [] (utf8 "THE g() ME TRA x MAY THE f() ME x = 1 IM TRA g() MAY f() IM") = .ok program ∧
      Lint.unbound span (utf8 "x") ∈ program.lint .none ∧
      (∃ machine, Visits setup.limits (program.visit .empty setup)
          ⟨6, .expression (.reference span (utf8 "x")), machine⟩ ∧
        expression setup.limits (invoke setup.limits 6) (.reference span (utf8 "x")) machine =
          .ok (.int 1) machine) ∧
      (program.run .empty setup).outcome = .ok (.normal (.int 1)) := by
  intro span reading assigning program setup
  have scanned : (tokenize []
      (utf8 "THE g() ME TRA x MAY THE f() ME x = 1 IM TRA g() MAY f() IM")).toOption = some [
      .inLine (.keyword .function) "THE" 1 4, .inLine .name "g" 5 6,
      .inLine (.mark .openParen) "(" 6 7, .inLine (.mark .closeParen) ")" 7 8,
      .inLine (.keyword .openBlock) "ME" 9 11, .inLine (.keyword .giveBack) "TRA" 12 15,
      .inLine .name "x" 16 17, .inLine (.keyword .closeBlock) "MAY" 18 21,
      .inLine (.keyword .function) "THE" 22 25, .inLine .name "f" 26 27,
      .inLine (.mark .openParen) "(" 27 28, .inLine (.mark .closeParen) ")" 28 29,
      .inLine (.keyword .openBlock) "ME" 30 32, .inLine .name "x" 33 34,
      .inLine (.mark .assign) "=" 35 36, .inLine .number "1" 37 38,
      .inLine (.keyword .terminator) "IM" 39 41, .inLine (.keyword .giveBack) "TRA" 42 45,
      .inLine .name "g" 46 47, .inLine (.mark .openParen) "(" 47 48,
      .inLine (.mark .closeParen) ")" 48 49, .inLine (.keyword .closeBlock) "MAY" 50 53,
      .inLine .name "f" 54 55, .inLine (.mark .openParen) "(" 55 56,
      .inLine (.mark .closeParen) ")" 56 57, .inLine (.keyword .terminator) "IM" 58 60,
      .inLine .endOfFile "" 60 60] := by
    decide +kernel
  have one : Text.toInt64? (utf8 "1") = some 1 := by decide
  refine ⟨parse_of_tokens scanned ?_, by decide +kernel, ?_, rfl⟩
  · simp [Token.inLine, parseTokens, Grammar.topLevel, Grammar.statement, Grammar.assignment,
      Grammar.declaration, Grammar.parameters, Grammar.block, Grammar.statements,
      Grammar.terminated, Grammar.selfDelimited, Grammar.formula, Grammar.chain, Grammar.primary,
      Grammar.arguments, Grammar.take, Grammar.operator?, Grammar.joined, Grammar.endToken,
      Span.cover, Node.span, Block.span, one, program, reading, assigning, span]
  · rw [show program.visit .empty setup =
      ⟨6 + 1 + 1, .body program.body, program.start .empty setup⟩ from rfl]
    apply Exists.intro
    constructor
    · refine .part .inside (.part (.next rfl rfl rfl rfl) (.part (.next rfl rfl rfl rfl)
        (.part (.first rfl rfl) (.part (.formula rfl) ?_))))
      refine .part (.called rfl rfl rfl rfl) (.part .invoked (.part .inside ?_))
      refine .part (.next rfl rfl rfl rfl) (.part (.first rfl rfl) (.part .given ?_))
      exact .part (.called rfl rfl rfl rfl) (.part .invoked (.part .inside
        (.part (.first rfl rfl) (.part .given .here))))
    · rfl

end Program

end Parlance
