import Parlance.Proofs.Grammar.Answer
import Parlance.Proofs.Grammar.Derivation

namespace Parlance

open Grammar Parlance.Derivation

/-!
Soundness of the readers: behind every answer stands a greedy derivation of
the tokens it took. The proofs follow the recursion of the readers, one rule
at a time.
-/

/-- The first terminal of what is left; there is an end of file behind the
last token. -/
def upcoming (tokens : List Token) : Terminal :=
  (tokens.map Token.terminal).headD .endOfFile

/-- The given terminals stand in front of `rest`, with all numbers in range. -/
structure Consumed (tokens rest : List Token) (terminals : List Terminal) : Prop where
  whole : tokens.map Token.terminal = terminals ++ rest.map Token.terminal
  inRange : ∀ terminal ∈ terminals, terminal.InRange

namespace Consumed

variable {tokens middle rest : List Token} {front back : List Terminal} {token : Token}

theorem nothing (tokens : List Token) : Consumed tokens tokens [] :=
  ⟨rfl, by simp⟩

theorem append (first : Consumed tokens middle front) (second : Consumed middle rest back) :
    Consumed tokens rest (front ++ back) := by
  refine ⟨by rw [first.whole, second.whole, List.append_assoc], ?_⟩
  intro terminal member
  rcases List.mem_append.mp member with member | member
  · exact first.inRange terminal member
  · exact second.inRange terminal member

theorem cons {terminal : Terminal} (same : token.terminal = terminal) (inRange : terminal.InRange)
    (consumed : Consumed tokens rest front) : Consumed (token :: tokens) rest (terminal :: front) := by
  refine ⟨by rw [List.map_cons, same, consumed.whole, List.cons_append], ?_⟩
  intro other member
  rcases List.mem_cons.mp member with rfl | member
  · exact inRange
  · exact consumed.inRange other member

theorem single {terminal : Terminal} (same : token.terminal = terminal)
    (inRange : terminal.InRange) : Consumed (token :: rest) rest [terminal] :=
  cons same inRange (nothing rest)

/-- What comes next is told by the terminals, or by what stands behind them. -/
theorem upcoming_eq (consumed : Consumed tokens rest front) :
    upcoming tokens = front.headD (upcoming rest) := by
  unfold upcoming
  rw [consumed.whole]
  cases front <;> rfl

end Consumed

/-- An operator is told by the kind of its sign. -/
theorem operator?_sign {level : Nat} {operator : Operator} (member : operator ∈ operators level) :
    operator? level operator.sign.kind = some operator := by
  match level with
  | 0 => exact (by decide : ∀ operator ∈ operators 0, operator? 0 operator.sign.kind = some operator) _ member
  | 1 => exact (by decide : ∀ operator ∈ operators 1, operator? 1 operator.sign.kind = some operator) _ member
  | 2 => exact (by decide : ∀ operator ∈ operators 2, operator? 2 operator.sign.kind = some operator) _ member
  | _ + 3 => contradiction

theorem operator?_eq_some_iff {token : Token} {level : Nat} {operator : Operator} :
    operator? level token.kind = some operator ↔
      operator ∈ operators level ∧ token.terminal = operator.sign := by
  constructor
  · intro binds
    unfold operator? at binds
    split at binds <;> simp_all [Token.terminal, operators] <;> cases binds <;>
      simp [Operator.sign, Terminal.of]
  · rintro ⟨member, same⟩
    have kind : token.kind = operator.sign.kind := Token.kind_of_terminal same
    rw [kind]
    exact operator?_sign member

theorem operator?_eq_none_iff {level : Nat} {token : Token} :
    operator? level token.kind = none ↔
      ∀ operator ∈ operators level, token.terminal ≠ operator.sign := by
  constructor
  · intro unbound operator member same
    have binds := operator?_eq_some_iff.mpr ⟨member, same⟩
    rw [unbound] at binds
    contradiction
  · intro unbound
    cases binds : operator? level token.kind with
    | none => rfl
    | some operator =>
        obtain ⟨member, same⟩ := operator?_eq_some_iff.mp binds
        exact absurd same (unbound operator member)

theorem Operator.sign_inRange (operator : Operator) : operator.sign.InRange := by
  cases operator <;> trivial

theorem erased_joined (operator : Operator) (left right : Node) :
    (joined operator left right).erased = .binary .blank operator left.erased right.erased := rfl

section Soundness

variable {stop : Token}

/-- Every formula read has a greedy derivation. -/
def FormulaSound (stop : Token) (level : Nat) (tokens : List Token) : Prop :=
  ∀ node rest, readFormula stop level tokens = .ok (node, rest) →
    ∃ tree : Formula level, Consumed tokens rest tree.terminals ∧ tree.Greedy (upcoming rest) ∧
      tree.node = node.erased

def ChainSound (stop : Token) (level : Nat) (tokens : List Token) : Prop :=
  ∀ left node rest, readChain stop level left tokens = .ok (node, rest) →
    ∃ links : Links level, Consumed tokens rest links.terminals ∧ links.Greedy (upcoming rest) ∧
      links.node left.erased = node.erased

def ValuesSound (stop : Token) (tokens : List Token) : Prop :=
  ∀ read rest, readValues stop tokens = .ok (read, rest) →
    ∃ values : Values, Consumed tokens rest values.terminals ∧ values.Greedy ∧
      values.nodes = Node.erasedAll read.1

def ArgumentsSound (stop : Token) (tokens : List Token) : Prop :=
  ∀ read rest, readArguments stop tokens = .ok (read, rest) →
    ∃ arguments : Arguments, Consumed tokens rest arguments.terminals ∧ arguments.Greedy ∧
      arguments.nodes = Node.erasedAll read.1

theorem readToken_sound {kind : Kind} {tokens rest : List Token} {token : Token}
    (accepted : readToken stop kind tokens = .ok (token, rest)) :
    tokens = token :: rest ∧ token.kind = kind := by
  cases tokens with
  | nil => contradiction
  | cons first others =>
      rw [readToken_cons] at accepted
      split at accepted
      · next same =>
          cases accepted
          exact ⟨rfl, same⟩
      · contradiction

theorem name_sound {token : Token} {others : List Token} (name : token.kind = .name)
    (shorter : ∀ shorter : List Token, shorter.length < (token :: others).length →
      ArgumentsSound stop shorter) {node : Node} {rest : List Token}
    (accepted : readFormula stop 0 (token :: others) = .ok (node, rest)) :
    ∃ tree : Formula 0, Consumed (token :: others) rest tree.terminals ∧
      tree.Greedy (upcoming rest) ∧ tree.node = node.erased := by
  have named := Token.terminal_of_name name
  by_cases opens : ∃ next behind, others = next :: behind ∧ next.kind = .mark .openParen
  · obtain ⟨next, behind, rfl, opening⟩ := opens
    rw [readPrimary_call stop name opening] at accepted
    obtain ⟨read, middle, argumentsRead, answered⟩ := Answer.andThen_eq_ok accepted
    cases answered
    obtain ⟨arguments, consumed, greedy, denoted⟩ :=
      shorter behind (by simp only [List.length_cons]; omega) read rest argumentsRead
    refine ⟨.call token.value arguments, ?_, greedy, ?_⟩
    · exact .cons named trivial (.cons (Token.terminal_of_mark opening) trivial consumed)
    · simp only [Formula.node, Node.erased, denoted]
  · have notOpen : ∀ next ∈ others.head?, next.kind ≠ .mark .openParen := by
      intro next member opening
      cases others with
      | nil => contradiction
      | cons first behind =>
          have same : first = next := by simpa using member
          exact opens ⟨first, behind, rfl, same ▸ opening⟩
    rw [readPrimary_reference stop name notOpen] at accepted
    cases accepted
    refine ⟨.reference token.value, .single named trivial, ?_, rfl⟩
    cases others with
    | nil => simp [Formula.Greedy, upcoming]
    | cons first behind =>
        intro same
        apply notOpen first rfl
        change first.terminal = _ at same
        rw [← Token.kind_terminal, same]
        rfl

theorem primary_sound (tokens : List Token)
    (shorter : ∀ shorter : List Token, shorter.length < tokens.length →
      FormulaSound stop loosest shorter ∧ ArgumentsSound stop shorter) :
    FormulaSound stop 0 tokens := by
  intro node rest accepted
  cases tokens with
  | nil =>
      rw [readFormula_nil] at accepted
      contradiction
  | cons token others =>
      by_cases starts : token.kind ∈ formulaStarts
      · simp only [formulaStarts, List.mem_cons, List.not_mem_nil, or_false] at starts
        rcases starts with number | string | name | opening
        · rw [readPrimary_number stop number] at accepted
          cases denoted : Text.toInt64? token.value with
          | none => simp [denoted] at accepted
          | some value =>
              simp only [denoted, Except.ok.injEq, Prod.mk.injEq] at accepted
              obtain ⟨rfl, rfl⟩ := accepted
              refine ⟨.number token.value, .single (Token.terminal_of_number number) ?_, trivial, ?_⟩
              · simp [Terminal.InRange, denoted]
              · simp [Formula.node, Node.erased, denoted]
        · rw [readPrimary_string stop string] at accepted
          cases accepted
          exact ⟨.string token.value, .single (Token.terminal_of_string string) trivial, trivial, rfl⟩
        · exact name_sound name (fun other less => (shorter other less).2) accepted
        · rw [readPrimary_group stop opening] at accepted
          obtain ⟨inner, middle, innerRead, accepted⟩ := Answer.andThen_eq_ok accepted
          obtain ⟨closing, behind, closed, answered⟩ := Answer.andThen_eq_ok accepted
          obtain ⟨rfl, isClosing⟩ := readToken_sound closed
          cases answered
          obtain ⟨tree, consumed, greedy, denoted⟩ := (shorter others (by simp)).1 _ _ innerRead
          have closingTerminal := Token.terminal_of_mark isClosing
          refine ⟨.group tree, ?_, ?_, denoted⟩
          · exact .cons (Token.terminal_of_mark opening) trivial
              (consumed.append (.single closingTerminal trivial))
          · simpa [Formula.Greedy, upcoming, closingTerminal] using greedy
      · rw [readPrimary_refused stop starts] at accepted
        contradiction

theorem level_sound (level : Nat) (tokens : List Token) (first : FormulaSound stop level tokens)
    (shorter : ∀ shorter : List Token, shorter.length < tokens.length →
      ChainSound stop level shorter) : FormulaSound stop (level + 1) tokens := by
  intro node rest accepted
  rw [readFormula_succ] at accepted
  obtain ⟨left, middle, leftRead, accepted⟩ := Answer.andThen_eq_ok accepted
  obtain ⟨tree, consumed, greedy, denoted⟩ := first left middle leftRead
  obtain ⟨links, linked, linksGreedy, whole⟩ :=
    shorter middle (Answer.of_eq_ok leftRead) left node rest accepted
  refine ⟨.chain tree links, consumed.append linked, ⟨?_, linksGreedy⟩, ?_⟩
  · rw [← linked.upcoming_eq]
    exact greedy
  · rw [Formula.node, denoted, whole]

theorem chain_sound (level : Nat) (tokens : List Token)
    (shorter : ∀ shorter : List Token, shorter.length < tokens.length →
      FormulaSound stop level shorter ∧ ChainSound stop level shorter) :
    ChainSound stop level tokens := by
  intro left node rest accepted
  cases tokens with
  | nil =>
      rw [readChain_nil] at accepted
      cases accepted
      refine ⟨.done, .nothing [], ?_, rfl⟩
      exact fun operator binds same => sign_ne_endOfFile binds same.symm
  | cons token others =>
      rw [readChain_cons] at accepted
      cases binds : operator? level token.kind with
      | none =>
          simp only [binds, Except.ok.injEq, Prod.mk.injEq] at accepted
          obtain ⟨rfl, rfl⟩ := accepted
          refine ⟨.done, .nothing _, ?_, rfl⟩
          simpa [Links.Greedy, upcoming] using operator?_eq_none_iff.mp binds
      | some operator =>
          simp only [binds] at accepted
          obtain ⟨member, isSign⟩ := operator?_eq_some_iff.mp binds
          obtain ⟨right, middle, rightRead, accepted⟩ := Answer.andThen_eq_ok accepted
          obtain ⟨tree, consumed, greedy, denoted⟩ :=
            (shorter others (by simp)).1 right middle rightRead
          have less := Answer.of_eq_ok rightRead
          obtain ⟨links, linked, linksGreedy, whole⟩ :=
            (shorter middle (by simp only [List.length_cons]; omega)).2 _ node rest accepted
          refine ⟨.link operator member tree links, ?_, ⟨?_, linksGreedy⟩, ?_⟩
          · exact .cons isSign operator.sign_inRange (consumed.append linked)
          · rw [← linked.upcoming_eq]
            exact greedy
          · rw [Links.node, denoted, ← erased_joined, whole]

theorem values_sound (tokens : List Token) (formula : FormulaSound stop loosest tokens)
    (shorter : ∀ shorter : List Token, shorter.length < tokens.length → ValuesSound stop shorter) :
    ValuesSound stop tokens := by
  intro read rest accepted
  rw [readValues_eq] at accepted
  obtain ⟨value, middle, valueRead, accepted⟩ := Answer.andThen_eq_ok accepted
  obtain ⟨tree, consumed, greedy, denoted⟩ := formula value middle valueRead
  cases middle with
  | nil => contradiction
  | cons token others =>
      have less := Answer.of_eq_ok valueRead
      simp only [List.length_cons] at less
      rw [readValuesAfter] at accepted
      split at accepted
      · next comma =>
          obtain ⟨following, behind, followingRead, answered⟩ := Answer.andThen_eq_ok accepted
          cases answered
          obtain ⟨values, consumedValues, valuesGreedy, denotedValues⟩ :=
            shorter others (by omega) following rest followingRead
          have commaTerminal := Token.terminal_of_mark comma
          refine ⟨.more tree values, ?_, ⟨?_, valuesGreedy⟩, ?_⟩
          · exact consumed.append (.cons commaTerminal trivial consumedValues)
          · simpa [upcoming, commaTerminal] using greedy
          · rw [Values.nodes, denoted, denotedValues, Node.erasedAll]
      · split at accepted
        · next closing =>
            cases accepted
            have closingTerminal := Token.terminal_of_mark closing
            refine ⟨.last tree, consumed.append (.single closingTerminal trivial), ?_, ?_⟩
            · simpa [Values.Greedy, upcoming, closingTerminal] using greedy
            · rw [Values.nodes, denoted, Node.erasedAll, Node.erasedAll]
        · contradiction

theorem arguments_sound (tokens : List Token) (values : ValuesSound stop tokens) :
    ArgumentsSound stop tokens := by
  intro read rest accepted
  cases tokens with
  | nil =>
      rw [readArguments_nil] at accepted
      contradiction
  | cons token others =>
      rw [readArguments_cons] at accepted
      split at accepted
      · next closing =>
          cases accepted
          exact ⟨.none, .single (Token.terminal_of_mark closing) trivial, trivial, rfl⟩
      · obtain ⟨tree, consumed, greedy, denoted⟩ := values read rest accepted
        exact ⟨.some tree, consumed, greedy, denoted⟩

theorem formula_sound (level : Nat) (tokens : List Token) : FormulaSound stop level tokens :=
  (formulas_induction primary_sound level_sound chain_sound values_sound arguments_sound tokens).1
    level

theorem readNames_sound {function : Text} {seen names : List Text} {tokens rest : List Token}
    (accepted : readNames stop function seen tokens = .ok (names, rest)) :
    Consumed tokens rest (separated names) ∧ names ≠ [] ∧ names.Nodup ∧
      ∀ name ∈ names, name ∉ seen := by
  induction length : tokens.length using Nat.strongRecOn generalizing tokens seen names with
  | _ size inductionHypothesis =>
      subst length
      cases tokens with
      | nil => contradiction
      | cons token others =>
          rw [readNames_cons] at accepted
          split at accepted
          · next isName =>
              have named := Token.terminal_of_name isName
              split at accepted
              · contradiction
              · next fresh =>
                  cases others with
                  | nil =>
                      cases accepted
                      exact ⟨.single named trivial, by simp, by simp, by simpa using fresh⟩
                  | cons next behind =>
                      simp only at accepted
                      split at accepted
                      · next comma =>
                          obtain ⟨later, middle, laterRead, answered⟩ := Answer.andThen_eq_ok accepted
                          cases answered
                          obtain ⟨consumed, nonempty, distinct, unseen⟩ :=
                            inductionHypothesis behind.length (by simp only [List.length_cons]; omega)
                              laterRead rfl
                          cases later with
                          | nil => contradiction
                          | cons following names =>
                              have notRepeated : token.value ∉ following :: names := by
                                intro member
                                exact unseen token.value member List.mem_cons_self
                              refine ⟨.cons named trivial
                                (.cons (Token.terminal_of_mark comma) trivial consumed),
                                by simp, List.nodup_cons.mpr ⟨notRepeated, distinct⟩, ?_⟩
                              intro name member
                              rcases List.mem_cons.mp member with rfl | member
                              · exact fresh
                              · intro already
                                exact unseen name member (List.mem_cons_of_mem _ already)
                      · cases accepted
                        exact ⟨.single named trivial, by simp, by simp, by simpa using fresh⟩
          · contradiction

theorem readParameters_sound {function : Text} {names : List Text} {tokens rest : List Token}
    (accepted : readParameters stop function tokens = .ok (names, rest)) :
    Consumed tokens rest (separated names ++ [.mark .closeParen]) ∧ names.Nodup := by
  cases tokens with
  | nil => contradiction
  | cons token others =>
      rw [readParameters_cons] at accepted
      split at accepted
      · next closing =>
          cases accepted
          exact ⟨.single (Token.terminal_of_mark closing) trivial, .nil⟩
      · obtain ⟨list, middle, listRead, accepted⟩ := Answer.andThen_eq_ok accepted
        obtain ⟨consumed, _, distinct, _⟩ := readNames_sound listRead
        cases middle with
        | nil => contradiction
        | cons closing behind =>
            rw [readClosing] at accepted
            split at accepted
            · next isClosing =>
                cases accepted
                exact ⟨consumed.append (.single (Token.terminal_of_mark isClosing) trivial), distinct⟩
            · contradiction

/-- Every statement read has a greedy derivation without repeated parameters. -/
def StatementSound (stop : Token) (tokens : List Token) : Prop :=
  ∀ node rest, readStatement stop tokens = .ok (node, rest) →
    ∃ tree : Statement, Consumed tokens rest tree.terminals ∧ tree.Greedy (upcoming rest) ∧
      tree.Distinct ∧ tree.node = node.erased

def DeclarationSound (stop : Token) (tokens : List Token) : Prop :=
  ∀ first node rest, readDeclaration stop first tokens = .ok (node, rest) →
    ∃ name parameters, ∃ body : Statements,
      Consumed tokens rest (.name name :: .mark .openParen ::
        (separated parameters ++ .mark .closeParen :: enclosed body.terminals)) ∧
      body.Greedy (.keyword .closeBlock) ∧ parameters.Nodup ∧ body.Distinct ∧
      node.erased = .declaration .blank name parameters (some (.mk .blank body.nodes))

def ConditionalSound (stop : Token) (tokens : List Token) : Prop :=
  ∀ first node rest, first.kind = .keyword .ifWord →
    readConditional stop first tokens = .ok (node, rest) →
      ∃ tree : Conditional, Consumed (first :: tokens) rest tree.terminals ∧
        tree.Greedy (upcoming rest) ∧ tree.Distinct ∧ tree.node = node.erased

def BlockSound (stop : Token) (tokens : List Token) : Prop :=
  ∀ body rest, readBlock stop tokens = .ok (body, rest) →
    ∃ tree : Statements, Consumed tokens rest (enclosed tree.terminals) ∧
      tree.Greedy (.keyword .closeBlock) ∧ tree.Distinct ∧ body.erased = .mk .blank tree.nodes

def StatementsSound (stop : Token) (tokens : List Token) : Prop :=
  ∀ read rest, readStatements stop tokens = .ok (read, rest) →
    ∃ tree : Statements, Consumed tokens rest (tree.terminals ++ [.keyword .closeBlock]) ∧
      tree.Greedy (.keyword .closeBlock) ∧ tree.Distinct ∧ tree.nodes = Node.erasedAll read.1

theorem readTerminator_sound {node result : Node} {tokens rest : List Token}
    (accepted : readTerminator stop node tokens = .ok (result, rest)) :
    result = node ∧ Consumed tokens rest [.keyword .terminator] ∧
      upcoming tokens = .keyword .terminator := by
  obtain ⟨token, middle, tokenRead, answered⟩ := Answer.andThen_eq_ok accepted
  cases answered
  obtain ⟨rfl, same⟩ := readToken_sound tokenRead
  have terminal := Token.terminal_of_keyword same
  exact ⟨rfl, .single terminal trivial, by simp [upcoming, terminal]⟩

/-- An optional terminator is taken if and only if it is there. -/
theorem skipTerminator_sound {node result : Node} {tokens rest : List Token}
    (accepted : skipTerminator node tokens = .ok (result, rest)) :
    result = node ∧ ∃ taken, Consumed tokens rest (terminator taken) ∧
      (taken = false → upcoming rest ≠ .keyword .terminator) := by
  cases tokens with
  | nil =>
      cases accepted
      exact ⟨rfl, false, .nothing [], by simp [upcoming]⟩
  | cons token others =>
      rw [skipTerminator] at accepted
      split at accepted
      · next same =>
          cases accepted
          exact ⟨rfl, true, .single (Token.terminal_of_keyword same) trivial, by simp⟩
      · next differs =>
          cases accepted
          refine ⟨rfl, false, .nothing _, ?_⟩
          intro _ same
          apply differs
          change token.terminal = _ at same
          rw [← Token.kind_terminal, same]
          rfl

theorem assignment_sound {tokens middle rest : List Token} {node result : Node}
    (read : readAssignment stop tokens = .ok (node, middle))
    (ended : readTerminator stop node middle = .ok (result, rest)) :
    ∃ tree : Statement, Consumed tokens rest tree.terminals ∧ tree.Greedy (upcoming rest) ∧
      tree.Distinct ∧ tree.node = result.erased := by
  obtain ⟨rfl, terminated, next⟩ := readTerminator_sound ended
  rw [readAssignment_eq] at read
  obtain ⟨left, behind, leftRead, read⟩ := Answer.andThen_eq_ok read
  obtain ⟨leftTree, consumed, greedy, denoted⟩ := formula_sound _ _ left behind leftRead
  have noAssignment : left = result → behind = middle →
      ∃ tree : Statement, Consumed tokens rest tree.terminals ∧ tree.Greedy (upcoming rest) ∧
        tree.Distinct ∧ tree.node = result.erased := by
    rintro rfl rfl
    rw [next] at greedy
    exact ⟨.formula leftTree, consumed.append terminated, greedy, trivial, denoted⟩
  cases behind with
  | nil =>
      cases read
      exact noAssignment rfl rfl
  | cons token others =>
      rw [readRightSide] at read
      split at read
      · next assign =>
          obtain ⟨right, last, rightRead, answered⟩ := Answer.andThen_eq_ok read
          cases answered
          obtain ⟨rightTree, consumedRight, rightGreedy, denotedRight⟩ :=
            formula_sound _ _ right middle rightRead
          have assignTerminal := Token.terminal_of_mark assign
          refine ⟨.assignment leftTree rightTree, ?_, ⟨?_, ?_⟩, trivial, ?_⟩
          · exact consumed.append (.cons assignTerminal trivial (consumedRight.append terminated))
          · simpa [upcoming, assignTerminal] using greedy
          · rw [next] at rightGreedy
            exact rightGreedy
          · rw [Statement.node, denoted, denotedRight, erased_joined]
      · cases read
        exact noAssignment rfl rfl

theorem statement_sound (tokens : List Token)
    (shorter : ∀ shorter : List Token, shorter.length < tokens.length →
      DeclarationSound stop shorter ∧ ConditionalSound stop shorter) :
    StatementSound stop tokens := by
  intro node rest accepted
  cases tokens with
  | nil =>
      rw [readStatement_nil] at accepted
      contradiction
  | cons token others =>
      by_cases plain : token.kind ∈ statementWords
      · simp only [statementWords, List.mem_cons, List.not_mem_nil, or_false] at plain
        rcases plain with word | word | word | word
        all_goals have opening := Token.terminal_of_keyword word
        · rw [readStatement_declaration stop word] at accepted
          obtain ⟨result, middle, read, accepted⟩ := Answer.andThen_eq_ok accepted
          obtain ⟨rfl, taken, consumedEnd, left⟩ := skipTerminator_sound accepted
          obtain ⟨name, parameters, body, consumed, greedy, nodup, distinct, denoted⟩ :=
            (shorter others (by simp)).1 _ _ _ read
          refine ⟨.declaration name parameters body taken, ?_, ⟨greedy, left⟩, ⟨nodup, distinct⟩, ?_⟩
          · simpa [Statement.terminals] using Consumed.cons opening trivial (consumed.append consumedEnd)
          · rw [denoted, Statement.node]
        · rw [readStatement_giveBack stop word] at accepted
          obtain ⟨value, middle, read, accepted⟩ := Answer.andThen_eq_ok accepted
          obtain ⟨rfl, taken, consumedEnd, left⟩ := skipTerminator_sound accepted
          obtain ⟨tree, consumed, greedy, denoted⟩ := formula_sound _ _ _ _ read
          rw [consumedEnd.upcoming_eq] at greedy
          refine ⟨.giveBack tree taken, ?_, ⟨greedy, left⟩, trivial, ?_⟩
          · exact .cons opening trivial (consumed.append consumedEnd)
          · rw [Statement.node, denoted, Node.erased]
        · rw [readStatement_conditional stop word] at accepted
          obtain ⟨result, middle, read, accepted⟩ := Answer.andThen_eq_ok accepted
          obtain ⟨rfl, taken, consumedEnd, left⟩ := skipTerminator_sound accepted
          obtain ⟨tree, consumed, greedy, distinct, denoted⟩ :=
            (shorter others (by simp)).2 _ _ _ word read
          rw [consumedEnd.upcoming_eq] at greedy
          exact ⟨.conditional tree taken, consumed.append consumedEnd, ⟨greedy, left⟩, distinct, denoted⟩
        · rw [readStatement_print stop word] at accepted
          obtain ⟨operand, middle, read, accepted⟩ := Answer.andThen_eq_ok accepted
          obtain ⟨rfl, terminated, next⟩ := readTerminator_sound accepted
          obtain ⟨tree, consumed, greedy, denoted⟩ := formula_sound _ _ _ _ read
          rw [next] at greedy
          refine ⟨.print tree, .cons opening trivial (consumed.append terminated), greedy, trivial, ?_⟩
          rw [Statement.node, denoted, Node.erased]
      · rw [readStatement_plain stop plain] at accepted
        obtain ⟨result, middle, read, accepted⟩ := Answer.andThen_eq_ok accepted
        exact assignment_sound read accepted

theorem declaration_sound (tokens : List Token)
    (shorter : ∀ shorter : List Token, shorter.length < tokens.length → BlockSound stop shorter) :
    DeclarationSound stop tokens := by
  intro first node rest accepted
  rw [readDeclaration_eq] at accepted
  obtain ⟨name, afterName, nameRead, accepted⟩ := Answer.andThen_eq_ok accepted
  obtain ⟨opening, afterOpening, openingRead, accepted⟩ := Answer.andThen_eq_ok accepted
  obtain ⟨parameters, afterParameters, parametersRead, accepted⟩ := Answer.andThen_eq_ok accepted
  obtain ⟨block, afterBlock, blockRead, answered⟩ := Answer.andThen_eq_ok accepted
  cases answered
  obtain ⟨rfl, isName⟩ := readToken_sound nameRead
  obtain ⟨rfl, isOpening⟩ := readToken_sound openingRead
  obtain ⟨consumedParameters, nodup⟩ := readParameters_sound parametersRead
  have less := Answer.of_eq_ok parametersRead
  obtain ⟨body, consumed, greedy, distinct, denoted⟩ :=
    shorter afterParameters (by simp only [List.length_cons]; omega) block rest blockRead
  refine ⟨name.value, parameters, body, ?_, greedy, nodup, distinct, ?_⟩
  · have behind := consumedParameters.append consumed
    rw [List.append_assoc] at behind
    exact .cons (Token.terminal_of_name isName) trivial
      (.cons (Token.terminal_of_mark isOpening) trivial behind)
  · rw [Node.erased, Block.erasedOption, denoted]

theorem conditional_sound (tokens : List Token)
    (shorter : ∀ shorter : List Token, shorter.length < tokens.length →
      BlockSound stop shorter ∧ ConditionalSound stop shorter) : ConditionalSound stop tokens := by
  intro first node rest word accepted
  rw [readConditional_eq] at accepted
  obtain ⟨condition, afterCondition, conditionRead, accepted⟩ := Answer.andThen_eq_ok accepted
  obtain ⟨block, afterBlock, blockRead, accepted⟩ := Answer.andThen_eq_ok accepted
  obtain ⟨conditionTree, consumedCondition, conditionGreedy, conditionDenoted⟩ :=
    formula_sound _ _ _ _ conditionRead
  have lessCondition := Answer.of_eq_ok conditionRead
  obtain ⟨body, consumedBody, bodyGreedy, bodyDistinct, bodyDenoted⟩ :=
    (shorter afterCondition lessCondition).1 block afterBlock blockRead
  rw [consumedBody.upcoming_eq] at conditionGreedy
  have lessBlock := Answer.of_eq_ok blockRead
  -- The alternative decides how the conditional ends; what stands before it is the same.
  suffices ending : ∃ alternative : Alternative, Consumed afterBlock rest alternative.terminals ∧
      alternative.Greedy (upcoming rest) ∧ alternative.Distinct ∧
      node.erased = .conditional .blank condition.erased (some block.erased) alternative.node by
    obtain ⟨alternative, consumed, greedy, distinct, denoted⟩ := ending
    refine ⟨.mk conditionTree body alternative, ?_, ⟨conditionGreedy, bodyGreedy, greedy⟩,
      ⟨bodyDistinct, distinct⟩, ?_⟩
    · exact .cons (Token.terminal_of_keyword word) trivial
        (consumedCondition.append (consumedBody.append consumed))
    · rw [Conditional.node, denoted, conditionDenoted, bodyDenoted]
  cases afterBlock with
  | nil =>
      cases accepted
      exact ⟨.none, .nothing [], by simp [Alternative.Greedy, upcoming], trivial, rfl⟩
  | cons token others =>
      rw [readAlternative] at accepted
      simp only [List.length_cons] at lessBlock
      split at accepted
      · next isElse =>
          have elseTerminal := Token.terminal_of_keyword isElse
          obtain ⟨alternative, behind, branchRead, answered⟩ := Answer.andThen_eq_ok accepted
          cases answered
          cases others with
          | nil => contradiction
          | cons next others =>
              simp only [List.length_cons] at lessBlock
              rw [readBranch] at branchRead
              split at branchRead
              · next isIf =>
                  obtain ⟨tree, consumed, greedy, distinct, denoted⟩ :=
                    (shorter others (by omega)).2 _ _ _ isIf branchRead
                  refine ⟨.conditional tree, .cons elseTerminal trivial consumed, greedy, distinct, ?_⟩
                  rw [Alternative.node, denoted]
                  rfl
              · split at branchRead
                · obtain ⟨elseBlock, last, elseRead, answered⟩ := Answer.andThen_eq_ok branchRead
                  cases answered
                  obtain ⟨tree, consumed, greedy, distinct, denoted⟩ :=
                    (shorter (next :: others) (by simp only [List.length_cons]; omega)).1 _ _ elseRead
                  refine ⟨.body tree, .cons elseTerminal trivial consumed, greedy, distinct, ?_⟩
                  rw [Alternative.node, ← denoted]
                  rfl
                · contradiction
      · next notElse =>
          cases accepted
          refine ⟨.none, .nothing _, ?_, trivial, rfl⟩
          intro same
          apply notElse
          change token.terminal = _ at same
          rw [← Token.kind_terminal, same]
          rfl

theorem block_sound (tokens : List Token)
    (shorter : ∀ shorter : List Token, shorter.length < tokens.length →
      StatementsSound stop shorter) : BlockSound stop tokens := by
  intro body rest accepted
  rw [readBlock_eq] at accepted
  obtain ⟨opening, afterOpening, openingRead, accepted⟩ := Answer.andThen_eq_ok accepted
  obtain ⟨read, behind, statementsRead, answered⟩ := Answer.andThen_eq_ok accepted
  cases answered
  obtain ⟨rfl, isOpening⟩ := readToken_sound openingRead
  obtain ⟨tree, consumed, greedy, distinct, denoted⟩ :=
    shorter afterOpening (by simp) read rest statementsRead
  refine ⟨tree, .cons (Token.terminal_of_keyword isOpening) trivial consumed, greedy, distinct, ?_⟩
  rw [Block.erased, denoted]

theorem statements_sound (tokens : List Token) (statement : StatementSound stop tokens)
    (shorter : ∀ shorter : List Token, shorter.length < tokens.length →
      StatementsSound stop shorter) : StatementsSound stop tokens := by
  intro read rest accepted
  cases tokens with
  | nil =>
      rw [readStatements_nil] at accepted
      contradiction
  | cons token others =>
      rw [readStatements_cons] at accepted
      split at accepted
      · next closing =>
          cases accepted
          exact ⟨.nil, .single (Token.terminal_of_keyword closing) trivial, trivial, trivial, rfl⟩
      · obtain ⟨first, middle, firstRead, accepted⟩ := Answer.andThen_eq_ok accepted
        obtain ⟨following, behind, followingRead, answered⟩ := Answer.andThen_eq_ok accepted
        cases answered
        obtain ⟨firstTree, firstConsumed, firstGreedy, firstDistinct, firstDenoted⟩ :=
          statement first middle firstRead
        obtain ⟨tree, consumed, greedy, distinct, denoted⟩ :=
          shorter middle (Answer.of_eq_ok firstRead) following rest followingRead
        refine ⟨.cons firstTree tree, ?_, ⟨?_, greedy⟩, ⟨firstDistinct, distinct⟩, ?_⟩
        · rw [Statements.terminals, List.append_assoc]
          exact firstConsumed.append consumed
        · rw [consumed.upcoming_eq] at firstGreedy
          cases same : tree.terminals <;> simpa [same] using firstGreedy
        · rw [Statements.nodes, firstDenoted, denoted, Node.erasedAll]

theorem statement_sound_all (tokens : List Token) : StatementSound stop tokens :=
  (statements_induction statement_sound declaration_sound conditional_sound block_sound
    statements_sound tokens).1

theorem program_sound {tokens : List Token} {nodes : List Node} {rest : List Token}
    (accepted : readProgram stop tokens = .ok (nodes, rest)) :
    ∃ tree : Statements, Consumed tokens [] tree.terminals ∧ tree.Greedy .endOfFile ∧
      tree.Distinct ∧ tree.nodes = Node.erasedAll nodes := by
  induction length : tokens.length using Nat.strongRecOn generalizing tokens nodes rest with
  | _ size inductionHypothesis =>
      subst length
      cases tokens with
      | nil =>
          rw [readProgram_nil] at accepted
          cases accepted
          exact ⟨.nil, .nothing [], trivial, trivial, rfl⟩
      | cons token others =>
          rw [readProgram_cons] at accepted
          obtain ⟨first, middle, firstRead, accepted⟩ := Answer.andThen_eq_ok accepted
          obtain ⟨following, behind, followingRead, answered⟩ := Answer.andThen_eq_ok accepted
          cases answered
          obtain ⟨firstTree, firstConsumed, firstGreedy, firstDistinct, firstDenoted⟩ :=
            statement_sound_all _ first middle firstRead
          obtain ⟨tree, consumed, greedy, distinct, denoted⟩ :=
            inductionHypothesis middle.length (Answer.of_eq_ok firstRead) followingRead rfl
          refine ⟨.cons firstTree tree, firstConsumed.append consumed, ⟨?_, greedy⟩,
            ⟨firstDistinct, distinct⟩, ?_⟩
          · rw [consumed.upcoming_eq] at firstGreedy
            exact firstGreedy
          · rw [Statements.nodes, firstDenoted, denoted, Node.erasedAll]

end Soundness

end Parlance
