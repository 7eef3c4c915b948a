import Parlance.Proofs.Grammar.Soundness

namespace Parlance

open Grammar

/-!
What the readers take. A reader takes its tokens off the front one after the other,
so a relation between tokens and the nodes that are read off them is shown form by
form, and the walk through the readers is the same for all such relations.
-/

/-- What has to be shown of nodes and the tokens in front of the rest that they are
read off, form by form. The closing token of a call or a block is the first of the rest
of what it encloses. -/
structure Coverage (covers : List Token → List Token → List Node → Prop) : Prop where
  nothing (tokens : List Token) : covers tokens tokens []
  append {tokens middle rest : List Token} {nodes others : List Node} :
    covers tokens middle nodes → covers middle rest others → covers tokens rest (nodes ++ others)
  skip (token : Token) {tokens rest : List Token} {nodes : List Node} :
    covers tokens rest nodes → covers (token :: tokens) rest nodes
  number (token : Token) (rest : List Token) (value : Int64) :
    covers (token :: rest) rest [.number token.span value]
  string (token : Token) (rest : List Token) :
    covers (token :: rest) rest [.string token.span token.value]
  reference (token : Token) (rest : List Token) :
    covers (token :: rest) rest [.reference token.span token.value]
  call (token closing : Token) {tokens rest : List Token} {values : List Node} :
    covers tokens (closing :: rest) values →
      covers (token :: tokens) rest [.call (token.span.cover closing.span) token.value values]
  binary (operator : Operator) {tokens rest : List Token} {left right : Node} :
    covers tokens rest [left, right] → covers tokens rest [joined operator left right]
  print (token : Token) {tokens rest : List Token} {operand : Node} :
    covers tokens rest [operand] →
      covers (token :: tokens) rest [.unary (token.span.cover operand.span) .print operand]
  giveBack (token : Token) {tokens rest : List Token} {value : Node} :
    covers tokens rest [value] →
      covers (token :: tokens) rest [.giveBack (token.span.cover value.span) value]
  block (token closing : Token) {tokens rest : List Token} {nodes : List Node} :
    covers tokens (closing :: rest) nodes →
      covers (token :: tokens) rest [.block (.mk (token.span.cover closing.span) nodes)]
  declaration (token : Token) (name : Text) (parameters : List Text) {tokens rest : List Token}
    {body : Block} : covers tokens rest [.block body] →
      covers (token :: tokens) rest
        [.declaration (token.span.cover body.span) name parameters (some body)]
  conditional (token : Token) (alternative : Option Node) {tokens rest : List Token}
    {condition : Node} {body : Block} :
    covers tokens rest (condition :: .block body :: alternative.toList) →
      covers (token :: tokens) rest
        [.conditional (token.span.cover (alternative.getD (.block body)).span) condition (some body)
          alternative]

namespace Coverage

section Readers

variable (covers : List Token → List Token → List Node → Prop) (stop : Token)

def FormulaCovered (level : Nat) (tokens : List Token) : Prop :=
  ∀ node rest, readFormula stop level tokens = .ok (node, rest) → covers tokens rest [node]

/-- What is linked to a formula stands behind it. -/
def ChainCovered (level : Nat) (tokens : List Token) : Prop :=
  ∀ before left node rest, covers before tokens [left] →
    readChain stop level left tokens = .ok (node, rest) → covers before rest [node]

def ValuesCovered (tokens : List Token) : Prop :=
  ∀ read rest, readValues stop tokens = .ok (read, rest) → covers tokens (read.2 :: rest) read.1

def ArgumentsCovered (tokens : List Token) : Prop :=
  ∀ read rest, readArguments stop tokens = .ok (read, rest) → covers tokens (read.2 :: rest) read.1

def StatementCovered (tokens : List Token) : Prop :=
  ∀ node rest, readStatement stop tokens = .ok (node, rest) → covers tokens rest [node]

def DeclarationCovered (tokens : List Token) : Prop :=
  ∀ first node rest, readDeclaration stop first tokens = .ok (node, rest) →
    covers (first :: tokens) rest [node]

def ConditionalCovered (tokens : List Token) : Prop :=
  ∀ first node rest, readConditional stop first tokens = .ok (node, rest) →
    covers (first :: tokens) rest [node]

def BlockCovered (tokens : List Token) : Prop :=
  ∀ body rest, readBlock stop tokens = .ok (body, rest) → covers tokens rest [.block body]

def StatementsCovered (tokens : List Token) : Prop :=
  ∀ read rest, readStatements stop tokens = .ok (read, rest) → covers tokens (read.2 :: rest) read.1

end Readers

variable {covers : List Token → List Token → List Node → Prop} (coverage : Coverage covers)
  {stop : Token}

section Formulas

theorem level_covered (level : Nat) (tokens : List Token)
    (first : FormulaCovered covers stop level tokens)
    (shorter : ∀ shorter : List Token, shorter.length < tokens.length →
      ChainCovered covers stop level shorter) : FormulaCovered covers stop (level + 1) tokens := by
  intro node rest accepted
  rw [readFormula_succ] at accepted
  obtain ⟨left, middle, leftRead, accepted⟩ := Answer.andThen_eq_ok accepted
  exact shorter middle (Answer.of_eq_ok leftRead) tokens left node rest (first left middle leftRead)
    accepted

include coverage

theorem skipBehind {token : Token} {tokens rest : List Token} {nodes : List Node}
    (covered : covers tokens (token :: rest) nodes) : covers tokens rest nodes := by
  simpa using coverage.append covered (coverage.skip token (coverage.nothing rest))

theorem name_covered {token : Token} {others : List Token} (name : token.kind = .name)
    (shorter : ∀ shorter : List Token, shorter.length < (token :: others).length →
      ArgumentsCovered covers stop shorter) {node : Node} {rest : List Token}
    (accepted : readFormula stop 0 (token :: others) = .ok (node, rest)) :
    covers (token :: others) rest [node] := by
  by_cases opens : ∃ next behind, others = next :: behind ∧ next.kind = .mark .openParen
  · obtain ⟨next, behind, rfl, opening⟩ := opens
    rw [readPrimary_call stop name opening] at accepted
    obtain ⟨read, middle, argumentsRead, answered⟩ := Answer.andThen_eq_ok accepted
    cases answered
    have covered := shorter behind (by simp only [List.length_cons]; omega) read rest argumentsRead
    exact coverage.call token read.2 (coverage.skip next covered)
  · have notOpen : ∀ next ∈ others.head?, next.kind ≠ .mark .openParen := by
      intro next member opening
      cases others with
      | nil => contradiction
      | cons first behind =>
          have same : first = next := by simpa using member
          exact opens ⟨first, behind, rfl, same ▸ opening⟩
    rw [readPrimary_reference stop name notOpen] at accepted
    cases accepted
    exact coverage.reference token _

theorem primary_covered (tokens : List Token)
    (shorter : ∀ shorter : List Token, shorter.length < tokens.length →
      FormulaCovered covers stop loosest shorter ∧ ArgumentsCovered covers stop shorter) :
    FormulaCovered covers stop 0 tokens := by
  intro node rest accepted
  cases tokens with
  | nil =>
      rw [readFormula_nil] at accepted
      contradiction
  | cons token others =>
      by_cases starts : token.kind ∈ formulaStarts
      · simp only [formulaStarts, List.mem_cons, List.not_mem_nil, or_false] at starts
        rcases starts with number | string | name | opening
        · rw [readPrimary_number stop number] at accepted
          cases denoted : Text.toInt64? token.value with
          | none => simp [denoted] at accepted
          | some value =>
              simp only [denoted, Except.ok.injEq, Prod.mk.injEq] at accepted
              obtain ⟨rfl, rfl⟩ := accepted
              exact coverage.number token _ value
        · rw [readPrimary_string stop string] at accepted
          cases accepted
          exact coverage.string token _
        · exact coverage.name_covered name (fun other less => (shorter other less).2) accepted
        · rw [readPrimary_group stop opening] at accepted
          obtain ⟨inner, middle, innerRead, accepted⟩ := Answer.andThen_eq_ok accepted
          obtain ⟨closing, behind, closed, answered⟩ := Answer.andThen_eq_ok accepted
          obtain ⟨rfl, _⟩ := readToken_sound closed
          cases answered
          exact coverage.skip token
            (coverage.skipBehind ((shorter others (by simp)).1 _ _ innerRead))
      · rw [readPrimary_refused stop starts] at accepted
        contradiction

theorem chain_covered (level : Nat) (tokens : List Token)
    (shorter : ∀ shorter : List Token, shorter.length < tokens.length →
      FormulaCovered covers stop level shorter ∧ ChainCovered covers stop level shorter) :
    ChainCovered covers stop level tokens := by
  intro before left node rest covered accepted
  cases tokens with
  | nil =>
      rw [readChain_nil] at accepted
      cases accepted
      exact covered
  | cons token others =>
      rw [readChain_cons] at accepted
      cases binds : operator? level token.kind with
      | none =>
          simp only [binds, Except.ok.injEq, Prod.mk.injEq] at accepted
          obtain ⟨rfl, rfl⟩ := accepted
          exact covered
      | some operator =>
          simp only [binds] at accepted
          obtain ⟨right, middle, rightRead, accepted⟩ := Answer.andThen_eq_ok accepted
          have less := Answer.of_eq_ok rightRead
          have behind := coverage.skip token ((shorter others (by simp)).1 right middle rightRead)
          exact (shorter middle (by simp only [List.length_cons]; omega)).2 before _ node rest
            (coverage.binary operator (coverage.append covered behind)) accepted

theorem values_covered (tokens : List Token) (formula : FormulaCovered covers stop loosest tokens)
    (shorter : ∀ shorter : List Token, shorter.length < tokens.length →
      ValuesCovered covers stop shorter) : ValuesCovered covers stop tokens := by
  intro read rest accepted
  rw [readValues_eq] at accepted
  obtain ⟨value, middle, valueRead, accepted⟩ := Answer.andThen_eq_ok accepted
  have covered := formula value middle valueRead
  cases middle with
  | nil => contradiction
  | cons token others =>
      have less := Answer.of_eq_ok valueRead
      simp only [List.length_cons] at less
      rw [readValuesAfter] at accepted
      split at accepted
      · obtain ⟨following, behind, followingRead, answered⟩ := Answer.andThen_eq_ok accepted
        cases answered
        exact coverage.append (coverage.skipBehind covered)
          (shorter others (by omega) following rest followingRead)
      · split at accepted
        · cases accepted
          exact covered
        · contradiction

theorem arguments_covered (tokens : List Token) (values : ValuesCovered covers stop tokens) :
    ArgumentsCovered covers stop tokens := by
  intro read rest accepted
  cases tokens with
  | nil =>
      rw [readArguments_nil] at accepted
      contradiction
  | cons token others =>
      rw [readArguments_cons] at accepted
      split at accepted
      · cases accepted
        exact coverage.nothing _
      · exact values read rest accepted

theorem formula_covered {level : Nat} {tokens rest : List Token} {node : Node}
    (accepted : readFormula stop level tokens = .ok (node, rest)) : covers tokens rest [node] :=
  (formulas_induction coverage.primary_covered level_covered coverage.chain_covered
    coverage.values_covered coverage.arguments_covered tokens).1 level node rest accepted

end Formulas

section Statements

include coverage

theorem names_covered {function : Text} {seen names : List Text} {tokens rest : List Token}
    (accepted : readNames stop function seen tokens = .ok (names, rest)) : covers tokens rest [] := by
  induction length : tokens.length using Nat.strongRecOn generalizing tokens seen names with
  | _ size inductionHypothesis =>
      subst length
      cases tokens with
      | nil => contradiction
      | cons token others =>
          rw [readNames_cons] at accepted
          split at accepted
          · split at accepted
            · contradiction
            · cases others with
              | nil =>
                  cases accepted
                  exact coverage.skip token (coverage.nothing _)
              | cons next behind =>
                  simp only at accepted
                  split at accepted
                  · obtain ⟨later, middle, laterRead, answered⟩ := Answer.andThen_eq_ok accepted
                    cases answered
                    have covered := inductionHypothesis behind.length
                      (by simp only [List.length_cons]; omega) laterRead rfl
                    exact coverage.skip token (coverage.skip next covered)
                  · cases accepted
                    exact coverage.skip token (coverage.nothing _)
          · contradiction

theorem parameters_covered {function : Text} {names : List Text} {tokens rest : List Token}
    (accepted : readParameters stop function tokens = .ok (names, rest)) : covers tokens rest [] := by
  cases tokens with
  | nil => contradiction
  | cons token others =>
      rw [readParameters_cons] at accepted
      split at accepted
      · cases accepted
        exact coverage.skip token (coverage.nothing _)
      · obtain ⟨list, middle, listRead, accepted⟩ := Answer.andThen_eq_ok accepted
        have covered := coverage.names_covered listRead
        cases middle with
        | nil => contradiction
        | cons closing behind =>
            rw [readClosing] at accepted
            split at accepted
            · cases accepted
              exact coverage.skipBehind covered
            · contradiction

theorem terminator_covered {node result : Node} {before tokens rest : List Token}
    (covered : covers before tokens [node])
    (accepted : readTerminator stop node tokens = .ok (result, rest)) : covers before rest [result] := by
  obtain ⟨token, middle, tokenRead, answered⟩ := Answer.andThen_eq_ok accepted
  cases answered
  obtain ⟨rfl, _⟩ := readToken_sound tokenRead
  exact coverage.skipBehind covered

theorem skipTerminator_covered {node result : Node} {before tokens rest : List Token}
    (covered : covers before tokens [node])
    (accepted : skipTerminator node tokens = .ok (result, rest)) : covers before rest [result] := by
  cases tokens with
  | nil =>
      cases accepted
      exact covered
  | cons token others =>
      rw [skipTerminator] at accepted
      split at accepted
      · cases accepted
        exact coverage.skipBehind covered
      · cases accepted
        exact covered

theorem assignment_covered {tokens rest : List Token} {node : Node}
    (read : readAssignment stop tokens = .ok (node, rest)) : covers tokens rest [node] := by
  rw [readAssignment_eq] at read
  obtain ⟨left, behind, leftRead, read⟩ := Answer.andThen_eq_ok read
  have covered := coverage.formula_covered leftRead
  cases behind with
  | nil =>
      cases read
      exact covered
  | cons token others =>
      rw [readRightSide] at read
      split at read
      · obtain ⟨right, last, rightRead, answered⟩ := Answer.andThen_eq_ok read
        cases answered
        exact coverage.binary .assign
          (coverage.append covered (coverage.skip token (coverage.formula_covered rightRead)))
      · cases read
        exact covered

theorem statement_covered (tokens : List Token)
    (shorter : ∀ shorter : List Token, shorter.length < tokens.length →
      DeclarationCovered covers stop shorter ∧ ConditionalCovered covers stop shorter) :
    StatementCovered covers stop tokens := by
  intro node rest accepted
  cases tokens with
  | nil =>
      rw [readStatement_nil] at accepted
      contradiction
  | cons token others =>
      by_cases plain : token.kind ∈ statementWords
      · simp only [statementWords, List.mem_cons, List.not_mem_nil, or_false] at plain
        rcases plain with word | word | word | word
        · rw [readStatement_declaration stop word] at accepted
          obtain ⟨result, middle, read, accepted⟩ := Answer.andThen_eq_ok accepted
          exact coverage.skipTerminator_covered ((shorter others (by simp)).1 _ _ _ read) accepted
        · rw [readStatement_giveBack stop word] at accepted
          obtain ⟨value, middle, read, accepted⟩ := Answer.andThen_eq_ok accepted
          exact coverage.skipTerminator_covered
            (coverage.giveBack token (coverage.formula_covered read)) accepted
        · rw [readStatement_conditional stop word] at accepted
          obtain ⟨result, middle, read, accepted⟩ := Answer.andThen_eq_ok accepted
          exact coverage.skipTerminator_covered ((shorter others (by simp)).2 _ _ _ read) accepted
        · rw [readStatement_print stop word] at accepted
          obtain ⟨operand, middle, read, accepted⟩ := Answer.andThen_eq_ok accepted
          exact coverage.terminator_covered
            (coverage.print token (coverage.formula_covered read)) accepted
      · rw [readStatement_plain stop plain] at accepted
        obtain ⟨result, middle, read, accepted⟩ := Answer.andThen_eq_ok accepted
        exact coverage.terminator_covered (coverage.assignment_covered read) accepted

theorem declaration_covered (tokens : List Token)
    (shorter : ∀ shorter : List Token, shorter.length < tokens.length →
      BlockCovered covers stop shorter) : DeclarationCovered covers stop tokens := by
  intro first node rest accepted
  rw [readDeclaration_eq] at accepted
  obtain ⟨name, afterName, nameRead, accepted⟩ := Answer.andThen_eq_ok accepted
  obtain ⟨opening, afterOpening, openingRead, accepted⟩ := Answer.andThen_eq_ok accepted
  obtain ⟨parameters, afterParameters, parametersRead, accepted⟩ := Answer.andThen_eq_ok accepted
  obtain ⟨block, afterBlock, blockRead, answered⟩ := Answer.andThen_eq_ok accepted
  cases answered
  obtain ⟨rfl, _⟩ := readToken_sound nameRead
  obtain ⟨rfl, _⟩ := readToken_sound openingRead
  have less := Answer.of_eq_ok parametersRead
  have covered := shorter afterParameters (by simp only [List.length_cons]; omega) block rest blockRead
  have behind := coverage.append (coverage.parameters_covered parametersRead) covered
  exact coverage.declaration first name.value parameters
    (coverage.skip name (coverage.skip opening behind))

theorem conditional_covered (tokens : List Token)
    (shorter : ∀ shorter : List Token, shorter.length < tokens.length →
      BlockCovered covers stop shorter ∧ ConditionalCovered covers stop shorter) :
    ConditionalCovered covers stop tokens := by
  intro first node rest accepted
  rw [readConditional_eq] at accepted
  obtain ⟨condition, afterCondition, conditionRead, accepted⟩ := Answer.andThen_eq_ok accepted
  obtain ⟨block, afterBlock, blockRead, accepted⟩ := Answer.andThen_eq_ok accepted
  have lessCondition := Answer.of_eq_ok conditionRead
  have lessBlock := Answer.of_eq_ok blockRead
  have front := coverage.append (coverage.formula_covered conditionRead)
    ((shorter afterCondition lessCondition).1 block afterBlock blockRead)
  suffices ending : ∃ alternative : Option Node,
      node = .conditional (first.span.cover (alternative.getD (.block block)).span) condition
        (some block) alternative ∧ covers afterBlock rest alternative.toList by
    obtain ⟨alternative, rfl, covered⟩ := ending
    exact coverage.conditional first alternative (coverage.append front covered)
  cases afterBlock with
  | nil =>
      cases accepted
      exact ⟨none, rfl, coverage.nothing []⟩
  | cons token others =>
      rw [readAlternative] at accepted
      simp only [List.length_cons] at lessBlock
      split at accepted
      · obtain ⟨alternative, behind, branchRead, answered⟩ := Answer.andThen_eq_ok accepted
        cases answered
        refine ⟨some alternative, rfl, coverage.skip token ?_⟩
        cases others with
        | nil => contradiction
        | cons next others =>
            simp only [List.length_cons] at lessBlock
            rw [readBranch] at branchRead
            split at branchRead
            · exact (shorter others (by omega)).2 _ _ _ branchRead
            · split at branchRead
              · obtain ⟨elseBlock, last, elseRead, answered⟩ := Answer.andThen_eq_ok branchRead
                cases answered
                exact (shorter (next :: others) (by simp only [List.length_cons]; omega)).1 _ _ elseRead
              · contradiction
      · cases accepted
        exact ⟨none, rfl, coverage.nothing _⟩

theorem block_covered (tokens : List Token)
    (shorter : ∀ shorter : List Token, shorter.length < tokens.length →
      StatementsCovered covers stop shorter) : BlockCovered covers stop tokens := by
  intro body rest accepted
  rw [readBlock_eq] at accepted
  obtain ⟨opening, afterOpening, openingRead, accepted⟩ := Answer.andThen_eq_ok accepted
  obtain ⟨read, behind, statementsRead, answered⟩ := Answer.andThen_eq_ok accepted
  cases answered
  obtain ⟨rfl, _⟩ := readToken_sound openingRead
  exact coverage.block opening read.2 (shorter afterOpening (by simp) read rest statementsRead)

theorem statements_covered (tokens : List Token) (statement : StatementCovered covers stop tokens)
    (shorter : ∀ shorter : List Token, shorter.length < tokens.length →
      StatementsCovered covers stop shorter) : StatementsCovered covers stop tokens := by
  intro read rest accepted
  cases tokens with
  | nil =>
      rw [readStatements_nil] at accepted
      contradiction
  | cons token others =>
      rw [readStatements_cons] at accepted
      split at accepted
      · cases accepted
        exact coverage.nothing _
      · obtain ⟨first, middle, firstRead, accepted⟩ := Answer.andThen_eq_ok accepted
        obtain ⟨following, behind, followingRead, answered⟩ := Answer.andThen_eq_ok accepted
        cases answered
        exact coverage.append (statement first middle firstRead)
          (shorter middle (Answer.of_eq_ok firstRead) following rest followingRead)

theorem program_covered {tokens rest : List Token} {nodes : List Node}
    (accepted : readProgram stop tokens = .ok (nodes, rest)) : covers tokens rest nodes := by
  induction length : tokens.length using Nat.strongRecOn generalizing tokens nodes rest with
  | _ size inductionHypothesis =>
      subst length
      cases tokens with
      | nil =>
          rw [readProgram_nil] at accepted
          cases accepted
          exact coverage.nothing []
      | cons token others =>
          rw [readProgram_cons] at accepted
          obtain ⟨first, middle, firstRead, accepted⟩ := Answer.andThen_eq_ok accepted
          obtain ⟨following, behind, followingRead, answered⟩ := Answer.andThen_eq_ok accepted
          cases answered
          have covered := (statements_induction coverage.statement_covered coverage.declaration_covered
            coverage.conditional_covered coverage.block_covered coverage.statements_covered _).1
            first middle firstRead
          exact coverage.append covered
            (inductionHypothesis middle.length (Answer.of_eq_ok firstRead) followingRead rfl)

end Statements

end Coverage

end Parlance
