import Parlance.Proofs.Grammar.Soundness

namespace Parlance

open Grammar Parlance.Derivation

/-!
Completeness of the readers: what a greedy derivation yields is read back as
the tree it denotes. The proofs follow the derivation; what comes next decides
each optional part the way the derivation did.
-/

section Completeness

variable (stop : Token)

theorem headD_append {α : Type} (front back : List α) (fallback : α) :
    (front ++ back).headD fallback = front.headD (back.headD fallback) := by
  cases front <;> rfl

theorem readToken_complete {tokens : List Token} {terminal : Terminal} {rest : List Terminal}
    (whole : tokens.map Token.terminal = terminal :: rest) :
    ∃ token others, readToken stop terminal.kind tokens = .ok (token, others) ∧
      tokens = token :: others ∧ token.terminal = terminal ∧ others.map Token.terminal = rest := by
  obtain ⟨token, others, rfl, same, behind⟩ := List.map_eq_cons_iff.mp whole
  refine ⟨token, others, ?_, rfl, same, behind⟩
  rw [readToken_cons, if_pos (Token.kind_of_terminal same)]

mutual

/-- What a greedy formula yields is read back as the node it denotes. -/
theorem Derivation.Formula.complete {level : Nat} (tree : Formula level) {tokens : List Token}
    {rest : List Terminal} (whole : tokens.map Token.terminal = tree.terminals ++ rest)
    (greedy : tree.Greedy (rest.headD .endOfFile))
    (inRange : ∀ terminal ∈ tree.terminals, terminal.InRange) :
    ∃ node remaining, readFormula stop level tokens = .ok (node, remaining) ∧
      remaining.map Token.terminal = rest ∧ node.erased = tree.node := by
  match level, tree with
  | _, .number digits =>
      obtain ⟨token, others, rfl, same, rfl⟩ := List.map_eq_cons_iff.mp whole
      obtain ⟨isNumber, rfl⟩ := Token.of_terminal_number same
      obtain ⟨value, denoted⟩ := Option.isSome_iff_exists.mp
        (inRange (.number token.value) (by simp [Formula.terminals]))
      refine ⟨.number token.span value, others, ?_, rfl, ?_⟩
      · rw [readPrimary_number stop isNumber, denoted]
      · simp [Formula.node, Node.erased, denoted]
  | _, .string raw =>
      obtain ⟨token, others, rfl, same, rfl⟩ := List.map_eq_cons_iff.mp whole
      obtain ⟨isString, rfl⟩ := Token.of_terminal_string same
      exact ⟨.string token.span token.value, others, readPrimary_string stop isString others, rfl, rfl⟩
  | _, .reference name =>
      obtain ⟨token, others, rfl, same, rfl⟩ := List.map_eq_cons_iff.mp whole
      obtain ⟨isName, rfl⟩ := Token.of_terminal_name same
      refine ⟨.reference token.span token.value, others, readPrimary_reference stop isName ?_, rfl, rfl⟩
      intro next member opening
      cases others with
      | nil => contradiction
      | cons first behind =>
          have same : first = next := by simpa using member
          exact greedy (Token.terminal_of_mark (same ▸ opening))
  | _, .call name arguments =>
      obtain ⟨token, others, rfl, same, behind⟩ := List.map_eq_cons_iff.mp whole
      obtain ⟨isName, rfl⟩ := Token.of_terminal_name same
      obtain ⟨opening, others, rfl, isOpening, behind⟩ := List.map_eq_cons_iff.mp behind
      obtain ⟨read, remaining, argumentsRead, left, denoted⟩ :=
        Arguments.complete arguments behind greedy
          (fun terminal member => inRange terminal (by simp [Formula.terminals, member]))
      refine ⟨.call (token.span.cover read.2.span) token.value read.1, remaining, ?_, left, ?_⟩
      · rw [readPrimary_call stop isName (Token.kind_of_terminal isOpening), argumentsRead]
        rfl
      · simp only [Formula.node, Node.erased, denoted]
  | _, .group inner =>
      rw [Formula.terminals, List.cons_append, List.append_assoc] at whole
      obtain ⟨opening, others, rfl, isOpening, behind⟩ := List.map_eq_cons_iff.mp whole
      obtain ⟨node, remaining, innerRead, left, denoted⟩ :=
        Formula.complete inner behind greedy
          (fun terminal member => inRange terminal (by simp [Formula.terminals, member]))
      obtain ⟨closing, last, closed, _, _, left⟩ := readToken_complete stop left
      refine ⟨node, last, ?_, left, denoted⟩
      rw [readPrimary_group stop (Token.kind_of_terminal isOpening), innerRead, Answer.andThen_ok]
      exact closed ▸ rfl
  | _, .chain first links =>
      rw [Formula.terminals, List.append_assoc] at whole
      obtain ⟨left, middle, leftRead, behind, leftDenoted⟩ :=
        Formula.complete first whole (headD_append _ _ _ ▸ greedy.1)
          (fun terminal member => inRange terminal (by simp [Formula.terminals, member]))
      obtain ⟨node, remaining, chainRead, left', denoted⟩ :=
        Links.complete links left behind greedy.2
          (fun terminal member => inRange terminal (by simp [Formula.terminals, member]))
      refine ⟨node, remaining, ?_, left', ?_⟩
      · rw [readFormula_succ, leftRead, Answer.andThen_ok, chainRead]
      · rw [denoted, leftDenoted, Formula.node]

theorem Derivation.Links.complete {level : Nat} (links : Links level) (left : Node)
    {tokens : List Token} {rest : List Terminal}
    (whole : tokens.map Token.terminal = links.terminals ++ rest)
    (greedy : links.Greedy (rest.headD .endOfFile))
    (inRange : ∀ terminal ∈ links.terminals, terminal.InRange) :
    ∃ node remaining, readChain stop level left tokens = .ok (node, remaining) ∧
      remaining.map Token.terminal = rest ∧ node.erased = links.node left.erased := by
  match level, links with
  | level, .done =>
      rw [Links.terminals, List.nil_append] at whole
      subst whole
      refine ⟨left, tokens, ?_, rfl, rfl⟩
      cases tokens with
      | nil => exact readChain_nil stop level left
      | cons token others =>
          have unbound : operator? level token.kind = none := operator?_eq_none_iff.mpr greedy
          rw [readChain_cons, unbound]
  | level, .link operator binds right links =>
      rw [Links.terminals, List.cons_append, List.append_assoc] at whole
      obtain ⟨sign, others, rfl, isSign, behind⟩ := List.map_eq_cons_iff.mp whole
      obtain ⟨operand, middle, operandRead, behind, operandDenoted⟩ :=
        Formula.complete right behind (headD_append _ _ _ ▸ greedy.1)
          (fun terminal member => inRange terminal (by simp [Links.terminals, member]))
      obtain ⟨node, remaining, chainRead, left', denoted⟩ :=
        Links.complete links (joined operator left operand) behind greedy.2
          (fun terminal member => inRange terminal (by simp [Links.terminals, member]))
      refine ⟨node, remaining, ?_, left', ?_⟩
      · rw [readChain_cons, operator?_eq_some_iff.mpr ⟨binds, isSign⟩]
        simp only [operandRead, Answer.andThen_ok, chainRead]
      · rw [denoted, erased_joined, operandDenoted, Links.node]

theorem Derivation.Arguments.complete (arguments : Arguments) {tokens : List Token}
    {rest : List Terminal} (whole : tokens.map Token.terminal = arguments.terminals ++ rest)
    (greedy : arguments.Greedy) (inRange : ∀ terminal ∈ arguments.terminals, terminal.InRange) :
    ∃ read remaining, readArguments stop tokens = .ok (read, remaining) ∧
      remaining.map Token.terminal = rest ∧ Node.erasedAll read.1 = arguments.nodes := by
  match arguments with
  | .none =>
      obtain ⟨closing, others, rfl, isClosing, behind⟩ := List.map_eq_cons_iff.mp whole
      have closes : closing.kind = .mark .closeParen := Token.kind_of_terminal isClosing
      refine ⟨([], closing), others, ?_, behind, rfl⟩
      rw [readArguments_cons, if_pos closes]
  | .some values =>
      obtain ⟨read, remaining, valuesRead, left, denoted⟩ :=
        Values.complete values whole greedy inRange
      exact ⟨read, remaining, readArguments_of_readValues stop valuesRead, left, denoted⟩

theorem Derivation.Values.complete (values : Values) {tokens : List Token}
    {rest : List Terminal} (whole : tokens.map Token.terminal = values.terminals ++ rest)
    (greedy : values.Greedy) (inRange : ∀ terminal ∈ values.terminals, terminal.InRange) :
    ∃ read remaining, readValues stop tokens = .ok (read, remaining) ∧
      remaining.map Token.terminal = rest ∧ Node.erasedAll read.1 = values.nodes := by
  match values with
  | .last value =>
      rw [Values.terminals, List.append_assoc] at whole
      obtain ⟨node, middle, valueRead, behind, denoted⟩ :=
        Formula.complete value whole greedy
          (fun terminal member => inRange terminal (by simp [Values.terminals, member]))
      obtain ⟨closing, others, rfl, isClosing, behind⟩ := List.map_eq_cons_iff.mp behind
      refine ⟨([node], closing), others, ?_, behind, ?_⟩
      · rw [readValues_eq, valueRead, Answer.andThen_ok, readValuesAfter]
        simp [Token.kind_of_terminal isClosing, Terminal.kind]
      · simp only [Node.erasedAll, Values.nodes, denoted]
  | .more value values =>
      rw [Values.terminals, List.append_assoc] at whole
      obtain ⟨node, middle, valueRead, behind, denoted⟩ :=
        Formula.complete value whole greedy.1
          (fun terminal member => inRange terminal (by simp [Values.terminals, member]))
      obtain ⟨comma, others, rfl, isComma, behind⟩ := List.map_eq_cons_iff.mp behind
      obtain ⟨read, remaining, valuesRead, left, denotedAll⟩ :=
        Values.complete values behind greedy.2
          (fun terminal member => inRange terminal (by simp [Values.terminals, member]))
      have separates : comma.kind = .mark .comma := Token.kind_of_terminal isComma
      refine ⟨(node :: read.1, read.2), remaining, ?_, left, ?_⟩
      · rw [readValues_eq, valueRead, Answer.andThen_ok, readValuesAfter, if_pos separates, valuesRead,
          Answer.andThen_ok]
      · simp only [Node.erasedAll, Values.nodes, denoted, denotedAll]

end

theorem readNames_complete (function : Text) (seen : List Text) {names : List Text} {tokens : List Token}
    {rest : List Terminal} (whole : tokens.map Token.terminal = separated names ++ rest)
    (nonempty : names ≠ []) (nodup : names.Nodup) (unseen : ∀ name ∈ names, name ∉ seen)
    (ended : rest.headD .endOfFile ≠ .mark .comma) :
    ∃ remaining, readNames stop function seen tokens = .ok (names, remaining) ∧
      remaining.map Token.terminal = rest := by
  induction names generalizing seen tokens with
  | nil => contradiction
  | cons name names inductionHypothesis =>
      have fresh : name ∉ seen := unseen name List.mem_cons_self
      cases names with
      | nil =>
          obtain ⟨token, others, rfl, same, rfl⟩ := List.map_eq_cons_iff.mp whole
          obtain ⟨isName, rfl⟩ := Token.of_terminal_name same
          refine ⟨others, ?_, rfl⟩
          rw [readNames_cons, if_pos isName, if_neg fresh]
          cases others with
          | nil => rfl
          | cons next behind =>
              have noComma : next.kind ≠ .mark .comma := fun comma =>
                ended (Token.terminal_of_mark comma)
              simp only [if_neg noComma]
      | cons following names =>
          obtain ⟨token, others, rfl, same, behind⟩ := List.map_eq_cons_iff.mp whole
          obtain ⟨isName, rfl⟩ := Token.of_terminal_name same
          obtain ⟨comma, others, rfl, isComma, behind⟩ := List.map_eq_cons_iff.mp behind
          obtain ⟨notRepeated, nodup⟩ := List.nodup_cons.mp nodup
          obtain ⟨remaining, read, left⟩ := inductionHypothesis (token.value :: seen) behind
            (by simp) nodup (by
              intro name member already
              rcases List.mem_cons.mp already with rfl | already
              · exact notRepeated member
              · exact unseen name (List.mem_cons_of_mem _ member) already)
          have separates : comma.kind = .mark .comma := Token.kind_of_terminal isComma
          refine ⟨remaining, ?_, left⟩
          rw [readNames_cons, if_pos isName, if_neg fresh]
          simp only [if_pos separates, read, Answer.andThen_ok]

theorem readParameters_complete (function : Text) {names : List Text} {tokens : List Token}
    {rest : List Terminal}
    (whole : tokens.map Token.terminal = separated names ++ .mark .closeParen :: rest)
    (nodup : names.Nodup) :
    ∃ remaining, readParameters stop function tokens = .ok (names, remaining) ∧
      remaining.map Token.terminal = rest := by
  cases names with
  | nil =>
      obtain ⟨closing, others, rfl, isClosing, behind⟩ := List.map_eq_cons_iff.mp whole
      have closes : closing.kind = .mark .closeParen := Token.kind_of_terminal isClosing
      refine ⟨others, ?_, behind⟩
      rw [readParameters_cons, if_pos closes]
  | cons name names =>
      obtain ⟨middle, read, behind⟩ := readNames_complete stop function []
        whole (by simp) nodup (by simp) (by simp)
      obtain ⟨closing, others, rfl, isClosing, behind⟩ := List.map_eq_cons_iff.mp behind
      have closes : closing.kind = .mark .closeParen := Token.kind_of_terminal isClosing
      refine ⟨others, ?_, behind⟩
      cases tokens with
      | nil => contradiction
      | cons token tokens =>
          have isName : token.kind = .name := by
            by_cases isName : token.kind = .name
            · exact isName
            · rw [readNames_cons, if_neg isName] at read
              contradiction
          rw [readParameters_cons, isName, if_neg (by decide), read, Answer.andThen_ok, readClosing,
            if_pos closes]

theorem skipTerminator_complete (node : Node) {taken : Bool} {tokens : List Token}
    {rest : List Terminal} (whole : tokens.map Token.terminal = terminator taken ++ rest)
    (left : taken = false → rest.headD .endOfFile ≠ .keyword .terminator) :
    ∃ remaining, skipTerminator node tokens = .ok (node, remaining) ∧
      remaining.map Token.terminal = rest := by
  cases taken with
  | true =>
      obtain ⟨token, others, rfl, same, behind⟩ := List.map_eq_cons_iff.mp whole
      have ends : token.kind = .keyword .terminator := Token.kind_of_terminal same
      exact ⟨others, by rw [skipTerminator, if_pos ends], behind⟩
  | false =>
      rw [terminator, List.nil_append] at whole
      subst whole
      cases tokens with
      | nil => exact ⟨[], rfl, rfl⟩
      | cons token others =>
          have goesOn : token.kind ≠ .keyword .terminator := fun same =>
            left rfl (Token.terminal_of_keyword same)
          exact ⟨token :: others, by rw [skipTerminator, if_neg goesOn], rfl⟩

theorem readTerminator_complete (node : Node) {tokens : List Token} {rest : List Terminal}
    (whole : tokens.map Token.terminal = .keyword .terminator :: rest) :
    ∃ remaining, readTerminator stop node tokens = .ok (node, remaining) ∧
      remaining.map Token.terminal = rest := by
  obtain ⟨token, others, read, _, _, behind⟩ := readToken_complete stop whole
  refine ⟨others, ?_, behind⟩
  change (readToken stop (.keyword .terminator) tokens).andThen _ = _
  exact read ▸ rfl

/-- The first token of a formula tells that no statement word is there. -/
theorem plain_of_readFormula {level : Nat} {token : Token} {others : List Token}
    {answer : Node × List Token} (read : readFormula stop level (token :: others) = .ok answer) :
    token.kind ∉ statementWords := by
  intro word
  have unexpected : token.kind ∉ formulaStarts := by
    simp only [statementWords, List.mem_cons, List.not_mem_nil, or_false] at word
    rcases word with word | word | word | word <;> simp [word, formulaStarts]
  rw [readFormula_refused stop unexpected] at read
  contradiction

/-- The statements of a block are read back, together with the closing word. -/
def StatementsComplete (stop : Token) (tree : Statements) : Prop :=
  ∀ (tokens : List Token) (rest : List Terminal),
    tokens.map Token.terminal = tree.terminals ++ .keyword .closeBlock :: rest →
      ∃ read remaining, readStatements stop tokens = .ok (read, remaining) ∧
        remaining.map Token.terminal = rest ∧ Node.erasedAll read.1 = tree.nodes

theorem readBlock_complete {tree : Statements} (inner : StatementsComplete stop tree)
    {tokens : List Token} {rest : List Terminal}
    (whole : tokens.map Token.terminal = enclosed tree.terminals ++ rest) :
    ∃ body remaining, readBlock stop tokens = .ok (body, remaining) ∧
      remaining.map Token.terminal = rest ∧ body.erased = .mk .blank tree.nodes := by
  rw [enclosed, List.cons_append, List.append_assoc] at whole
  obtain ⟨opening, others, rfl, isOpening, behind⟩ := List.map_eq_cons_iff.mp whole
  obtain ⟨read, remaining, statementsRead, left, denoted⟩ := inner others rest behind
  have opens : opening.kind = .keyword .openBlock := Token.kind_of_terminal isOpening
  refine ⟨.mk (opening.span.cover read.2.span) read.1, remaining, ?_, left, ?_⟩
  · rw [readBlock_eq, readToken_cons, if_pos opens, Answer.andThen_ok, statementsRead]
    rfl
  · rw [Block.erased, denoted]

/-- A plain statement is read by way of the formula it starts with. -/
theorem readStatement_of_formula {tokens middle : List Token} {left : Node}
    (read : readFormula stop loosest tokens = .ok (left, middle)) :
    readStatement stop tokens = (readRightSide stop left middle).andThen (readTerminator stop) := by
  cases tokens with
  | nil =>
      rw [readFormula_nil] at read
      contradiction
  | cons token others =>
      rw [readStatement_plain stop (plain_of_readFormula stop read), readAssignment_eq, read,
        Answer.andThen_ok]

/-- What is shown of a statement: its terminals are read, and the reader stops behind them. -/
def StatementComplete (stop : Token) (tree : Statement) : Prop :=
  ∀ ⦃tokens : List Token⦄ ⦃rest : List Terminal⦄,
    tokens.map Token.terminal = tree.terminals ++ rest → tree.Greedy (rest.headD .endOfFile) →
      tree.Distinct → (∀ terminal ∈ tree.terminals, terminal.InRange) →
      ∃ node remaining, readStatement stop tokens = .ok (node, remaining) ∧
        remaining.map Token.terminal = rest ∧ node.erased = tree.node

theorem declaration_complete (name : Text) (parameters : List Text) {body : Statements}
    (terminated : Bool)
    (bodyComplete : body.Greedy (.keyword .closeBlock) → body.Distinct →
      (∀ terminal ∈ body.terminals, terminal.InRange) → StatementsComplete stop body) :
    StatementComplete stop (.declaration name parameters body terminated) := by
  intro tokens rest whole greedy distinct inRange
  simp only [Statement.terminals, List.cons_append, List.append_assoc] at whole
  obtain ⟨word, others, rfl, isWord, behind⟩ := List.map_eq_cons_iff.mp whole
  obtain ⟨nameToken, others, rfl, same, behindName⟩ := List.map_eq_cons_iff.mp behind
  obtain ⟨isName, rfl⟩ := Token.of_terminal_name same
  obtain ⟨opening, others, rfl, isOpening, inside⟩ := List.map_eq_cons_iff.mp behindName
  have opens : opening.kind = .mark .openParen := Token.kind_of_terminal isOpening
  obtain ⟨afterParameters, parametersRead, behind⟩ :=
    readParameters_complete stop nameToken.value inside distinct.1
  have inner : StatementsComplete stop body :=
    bodyComplete greedy.1 distinct.2
      (fun terminal member => inRange terminal (by simp [Statement.terminals, enclosed, member]))
  obtain ⟨block, afterBlock, blockRead, behind, denoted⟩ := readBlock_complete stop inner behind
  have isFunction : word.kind = .keyword .function := Token.kind_of_terminal isWord
  obtain ⟨remaining, skipped, left⟩ := skipTerminator_complete
    (.declaration (word.span.cover block.span) nameToken.value parameters (some block))
    behind greedy.2
  refine ⟨.declaration (word.span.cover block.span) nameToken.value parameters (some block),
    remaining, ?_, left, ?_⟩
  · rw [readStatement_declaration stop isFunction, readDeclaration_eq, readToken_cons,
      if_pos isName, Answer.andThen_ok, readToken_cons, if_pos opens, Answer.andThen_ok,
      parametersRead, Answer.andThen_ok, blockRead, Answer.andThen_ok, Answer.andThen_ok, skipped]
  · rw [Node.erased, Block.erasedOption, denoted, Statement.node]

theorem giveBack_complete (value : Formula comparison) (terminated : Bool) :
    StatementComplete stop (.giveBack value terminated) := by
  intro tokens rest whole greedy _ inRange
  simp only [Statement.terminals, List.cons_append, List.append_assoc] at whole
  obtain ⟨word, others, rfl, isWord, behind⟩ := List.map_eq_cons_iff.mp whole
  obtain ⟨node, middle, valueRead, behind, denoted⟩ :=
    value.complete stop behind (headD_append _ _ _ ▸ greedy.1)
      (fun terminal member => inRange terminal (by simp [Statement.terminals, member]))
  have isGiveBack : word.kind = .keyword .giveBack := Token.kind_of_terminal isWord
  obtain ⟨remaining, skipped, left⟩ := skipTerminator_complete
    (.giveBack (word.span.cover node.span) node) behind greedy.2
  refine ⟨.giveBack (word.span.cover node.span) node, remaining, ?_, left, ?_⟩
  · rw [readStatement_giveBack stop isGiveBack, valueRead, Answer.andThen_ok, skipped]
  · rw [Node.erased, denoted, Statement.node]

theorem print_complete (operand : Formula comparison) : StatementComplete stop (.print operand) := by
  intro tokens rest whole greedy _ inRange
  simp only [Statement.terminals, List.cons_append, List.append_assoc] at whole
  obtain ⟨word, others, rfl, isWord, behind⟩ := List.map_eq_cons_iff.mp whole
  obtain ⟨node, middle, operandRead, behind, denoted⟩ :=
    operand.complete stop behind greedy
      (fun terminal member => inRange terminal (by simp [Statement.terminals, member]))
  have isPrint : word.kind = .keyword .print := Token.kind_of_terminal isWord
  obtain ⟨remaining, ended, left⟩ := readTerminator_complete stop
    (.unary (word.span.cover node.span) .print node) behind
  refine ⟨.unary (word.span.cover node.span) .print node, remaining, ?_, left, ?_⟩
  · rw [readStatement_print stop isPrint, operandRead, Answer.andThen_ok, ended]
  · rw [Node.erased, denoted, Statement.node]

theorem formula_complete (value : Formula comparison) : StatementComplete stop (.formula value) := by
  intro tokens rest whole greedy _ inRange
  rw [Statement.terminals, List.append_assoc] at whole
  obtain ⟨node, middle, valueRead, behind, denoted⟩ :=
    value.complete stop whole greedy
      (fun terminal member => inRange terminal (by simp [Statement.terminals, member]))
  obtain ⟨remaining, ended, left⟩ := readTerminator_complete stop node behind
  obtain ⟨last, others, rfl, isLast, _⟩ := List.map_eq_cons_iff.mp behind
  have noAssign : last.kind ≠ .mark .assign := by simp [Token.kind_of_terminal isLast, Terminal.kind]
  refine ⟨node, remaining, ?_, left, denoted⟩
  rw [readStatement_of_formula stop valueRead, readRightSide, if_neg noAssign, Answer.andThen_ok, ended]

theorem assignment_complete (target value : Formula comparison) :
    StatementComplete stop (.assignment target value) := by
  intro tokens rest whole greedy _ inRange
  simp only [Statement.terminals, List.cons_append, List.append_assoc] at whole
  obtain ⟨left, middle, leftRead, behind, leftDenoted⟩ :=
    target.complete stop whole greedy.1
      (fun terminal member => inRange terminal (by simp [Statement.terminals, member]))
  obtain ⟨sign, others, rfl, isSign, behind⟩ := List.map_eq_cons_iff.mp behind
  have assigns : sign.kind = .mark .assign := Token.kind_of_terminal isSign
  obtain ⟨right, middle, rightRead, behind, rightDenoted⟩ :=
    value.complete stop behind greedy.2
      (fun terminal member => inRange terminal (by simp [Statement.terminals, member]))
  obtain ⟨remaining, ended, remains⟩ := readTerminator_complete stop
    (joined .assign left right) behind
  refine ⟨joined .assign left right, remaining, ?_, remains, ?_⟩
  · rw [readStatement_of_formula stop leftRead, readRightSide, if_pos assigns, rightRead,
      Answer.andThen_ok, Answer.andThen_ok, ended]
  · rw [erased_joined, leftDenoted, rightDenoted, Statement.node]

mutual

theorem Derivation.Statement.complete (tree : Statement) : StatementComplete stop tree := by
  match tree with
  | .declaration name parameters body terminated =>
      exact declaration_complete stop name parameters terminated (Statements.complete body)
  | .giveBack value terminated => exact giveBack_complete stop value terminated
  | .conditional conditional terminated =>
      intro tokens rest whole greedy distinct inRange
      rw [Statement.terminals, List.append_assoc] at whole
      obtain ⟨word, others, node, middle, rfl, isIf, read, behind, denoted⟩ :=
        Conditional.complete conditional whole (headD_append _ _ _ ▸ greedy.1) distinct
          (fun terminal member => inRange terminal (by simp [Statement.terminals, member]))
      obtain ⟨remaining, skipped, left⟩ := skipTerminator_complete node behind greedy.2
      refine ⟨node, remaining, ?_, left, denoted⟩
      rw [readStatement_conditional stop isIf, read, Answer.andThen_ok, skipped]
  | .print operand => exact print_complete stop operand
  | .formula value => exact formula_complete stop value
  | .assignment target value => exact assignment_complete stop target value

/-- The word that opens the conditional is part of its terminals. -/
theorem Derivation.Conditional.complete (tree : Conditional) {tokens : List Token}
    {rest : List Terminal} (whole : tokens.map Token.terminal = tree.terminals ++ rest)
    (greedy : tree.Greedy (rest.headD .endOfFile)) (distinct : tree.Distinct)
    (inRange : ∀ terminal ∈ tree.terminals, terminal.InRange) :
    ∃ word others node remaining, tokens = word :: others ∧ word.kind = .keyword .ifWord ∧
      readConditional stop word others = .ok (node, remaining) ∧
      remaining.map Token.terminal = rest ∧ node.erased = tree.node := by
  match tree with
  | .mk condition body alternative =>
      simp only [Conditional.terminals, List.cons_append, List.append_assoc] at whole
      obtain ⟨word, others, rfl, isWord, behind⟩ := List.map_eq_cons_iff.mp whole
      obtain ⟨node, afterCondition, conditionRead, behind, conditionDenoted⟩ :=
        condition.complete stop behind greedy.1
          (fun terminal member => inRange terminal (by simp [Conditional.terminals, member]))
      have inner : StatementsComplete stop body :=
        Statements.complete body greedy.2.1 distinct.1
          (fun terminal member => inRange terminal (by simp [Conditional.terminals, enclosed, member]))
      obtain ⟨block, afterBlock, blockRead, behind, blockDenoted⟩ := readBlock_complete stop inner behind
      obtain ⟨result, remaining, read, left, denoted⟩ :=
        Alternative.complete alternative word node block behind greedy.2.2 distinct.2
          (fun terminal member => inRange terminal (by simp [Conditional.terminals, member]))
      refine ⟨word, others, result, remaining, rfl, Token.kind_of_terminal isWord, ?_, left, ?_⟩
      · rw [readConditional_eq, conditionRead, Answer.andThen_ok, blockRead, Answer.andThen_ok, read]
      · rw [denoted, conditionDenoted, blockDenoted, Conditional.node]

theorem Derivation.Alternative.complete (tree : Alternative) (word : Token) (condition : Node)
    (block : Block) {tokens : List Token} {rest : List Terminal}
    (whole : tokens.map Token.terminal = tree.terminals ++ rest)
    (greedy : tree.Greedy (rest.headD .endOfFile)) (distinct : tree.Distinct)
    (inRange : ∀ terminal ∈ tree.terminals, terminal.InRange) :
    ∃ node remaining, readAlternative stop word condition block tokens = .ok (node, remaining) ∧
      remaining.map Token.terminal = rest ∧
      node.erased = .conditional .blank condition.erased (some block.erased) tree.node := by
  match tree with
  | .none =>
      rw [Alternative.terminals, List.nil_append] at whole
      subst whole
      cases tokens with
      | nil => exact ⟨_, [], rfl, rfl, rfl⟩
      | cons token others =>
          have noElse : token.kind ≠ .keyword .elseWord := fun same =>
            greedy (Token.terminal_of_keyword same)
          refine ⟨.conditional (word.span.cover block.span) condition (some block) none,
            token :: others, ?_, rfl, rfl⟩
          rw [readAlternative, if_neg noElse]
  | .conditional conditional =>
      rw [Alternative.terminals, List.cons_append] at whole
      obtain ⟨elseToken, others, rfl, isElse, behind⟩ := List.map_eq_cons_iff.mp whole
      obtain ⟨ifToken, others, node, remaining, rfl, isIf, read, left, denoted⟩ :=
        Conditional.complete conditional behind greedy distinct
          (fun terminal member => inRange terminal (by simp [Alternative.terminals, member]))
      have elses : elseToken.kind = .keyword .elseWord := Token.kind_of_terminal isElse
      refine ⟨.conditional (word.span.cover node.span) condition (some block) (some node),
        remaining, ?_, left, ?_⟩
      · rw [readAlternative, if_pos elses, readBranch, if_pos isIf, read, Answer.andThen_ok]
      · simp only [Node.erased, Block.erasedOption, Node.erasedOption, denoted, Alternative.node]
  | .body body =>
      rw [Alternative.terminals, List.cons_append] at whole
      obtain ⟨elseToken, others, rfl, isElse, behind⟩ := List.map_eq_cons_iff.mp whole
      have inner : StatementsComplete stop body :=
        Statements.complete body greedy distinct
          (fun terminal member => inRange terminal (by simp [Alternative.terminals, enclosed, member]))
      obtain ⟨elseBlock, remaining, read, left, denoted⟩ := readBlock_complete stop inner behind
      have elses : elseToken.kind = .keyword .elseWord := Token.kind_of_terminal isElse
      obtain ⟨opening, others, rfl, isOpening, _⟩ := List.map_eq_cons_iff.mp behind
      have opens : opening.kind = .keyword .openBlock := Token.kind_of_terminal isOpening
      have noIf : opening.kind ≠ .keyword .ifWord := by simp [opens]
      refine ⟨.conditional (word.span.cover (Node.block elseBlock).span) condition (some block)
        (some (.block elseBlock)), remaining, ?_, left, ?_⟩
      · rw [readAlternative, if_pos elses, readBranch, if_neg noIf, if_pos opens, read,
          Answer.andThen_ok, Answer.andThen_ok]
      · simp only [Node.erased, Block.erasedOption, Node.erasedOption, denoted, Alternative.node]

theorem Derivation.Statements.complete (tree : Statements)
    (greedy : tree.Greedy (.keyword .closeBlock)) (distinct : tree.Distinct)
    (inRange : ∀ terminal ∈ tree.terminals, terminal.InRange) : StatementsComplete stop tree := by
  intro tokens rest whole
  match tree with
  | .nil =>
      obtain ⟨closing, others, rfl, isClosing, behind⟩ := List.map_eq_cons_iff.mp whole
      have closes : closing.kind = .keyword .closeBlock := Token.kind_of_terminal isClosing
      exact ⟨([], closing), others, by rw [readStatements_cons, if_pos closes], behind, rfl⟩
  | .cons first others =>
      rw [Statements.terminals, List.append_assoc] at whole
      obtain ⟨node, middle, firstRead, behind, firstDenoted⟩ :=
        Statement.complete first whole (headD_append _ _ _ ▸ greedy.1) distinct.1
          (fun terminal member => inRange terminal (by simp [Statements.terminals, member]))
      obtain ⟨read, remaining, othersRead, left, denoted⟩ :=
        Statements.complete others greedy.2 distinct.2
          (fun terminal member => inRange terminal (by simp [Statements.terminals, member]))
          middle rest behind
      refine ⟨(node :: read.1, read.2), remaining, ?_, left, ?_⟩
      · cases tokens with
        | nil =>
            rw [readStatement_nil] at firstRead
            contradiction
        | cons token tokens =>
            rw [readStatements_cons, if_neg, firstRead, Answer.andThen_ok, othersRead,
              Answer.andThen_ok]
            intro closing
            rw [readStatement_refused stop (by simp [closing, formulaStarts])
              (by simp [closing, statementWords])] at firstRead
            contradiction
      · rw [Node.erasedAll, Statements.nodes, firstDenoted, denoted]

end

theorem program_complete (tree : Statements) {tokens : List Token}
    (whole : tokens.map Token.terminal = tree.terminals) (greedy : tree.Greedy .endOfFile)
    (distinct : tree.Distinct) (inRange : ∀ terminal ∈ tree.terminals, terminal.InRange) :
    ∃ nodes, readProgram stop tokens = .ok (nodes, []) ∧ Node.erasedAll nodes = tree.nodes := by
  match tree with
  | .nil =>
      have empty : tokens = [] := List.map_eq_nil_iff.mp whole
      subst empty
      exact ⟨[], readProgram_nil stop, rfl⟩
  | .cons first others =>
      rw [Statements.terminals] at whole
      obtain ⟨node, middle, firstRead, behind, firstDenoted⟩ :=
        first.complete stop whole greedy.1 distinct.1
          (fun terminal member => inRange terminal (by simp [Statements.terminals, member]))
      obtain ⟨nodes, othersRead, denoted⟩ :=
        program_complete others behind greedy.2 distinct.2
          (fun terminal member => inRange terminal (by simp [Statements.terminals, member]))
      refine ⟨node :: nodes, ?_, ?_⟩
      · cases tokens with
        | nil =>
            rw [readStatement_nil] at firstRead
            contradiction
        | cons token tokens =>
            rw [readProgram_cons, firstRead, Answer.andThen_ok, othersRead, Answer.andThen_ok]
      · rw [Node.erasedAll, Statements.nodes, firstDenoted, denoted]

end Completeness

end Parlance
