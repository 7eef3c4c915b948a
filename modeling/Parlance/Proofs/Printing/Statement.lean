import Parlance.Proofs.Printing.Formula

namespace Parlance.Printer

open Parlance.Derivation Scanner

/-!
The printed text of statements is read back. A printed statement either ends
with its terminator or with a block, and a block is followed by a line that
starts with neither a terminator nor an alternative.
-/

/-- The terminal does not belong to a statement in front of it. -/
def Separates (next : Terminal) : Prop :=
  next ≠ .keyword .terminator ∧ next ≠ .keyword .elseWord

instance (next : Terminal) : Decidable (Separates next) :=
  inferInstanceAs (Decidable (_ ∧ _))

def StatementReadable (depth : Nat) (node : Node) : Prop :=
  ∃ tree : Statement, tree.node = node.erased ∧
    (∀ next, Separates next → tree.Greedy next) ∧ tree.Distinct ∧
    (∀ terminal ∈ tree.terminals, terminal.InRange) ∧
    WritesWord (statement depth node) tree.terminals

/-- Statements that are printed each on a line of its own. -/
def StatementsReadable (depth : Nat) (nodes : List Node) : Prop :=
  ∃ tree : Statements, tree.nodes = Node.erasedAll nodes ∧
    (∀ next, Separates next → tree.Greedy next) ∧ tree.Distinct ∧
    (∀ terminal ∈ tree.terminals, terminal.InRange) ∧
    Writes ((statements depth nodes).flatMap (· ++ utf8 "\n")) tree.terminals

def BodyReadable (depth : Nat) (body : Option Block) : Prop :=
  ∃ tree : Statements, some (.mk .blank tree.nodes) = Block.erasedOption body ∧
    tree.Greedy (.keyword .closeBlock) ∧ tree.Distinct ∧
    (∀ terminal ∈ Derivation.enclosed tree.terminals, terminal.InRange) ∧
    WritesWord (optionalBlock depth body) (Derivation.enclosed tree.terminals)

def AlternativeReadable (depth : Nat) (alternative : Option Node) : Prop :=
  ∃ tree : Alternative, tree.node = Node.erasedOption alternative ∧
    (∀ next, Separates next → tree.Greedy next) ∧ tree.Distinct ∧
    (∀ terminal ∈ tree.terminals, terminal.InRange) ∧
    ∀ {text terminals}, WritesWord text terminals →
      WritesWord (text ++ otherwise depth alternative) (terminals ++ tree.terminals)

section Lines

theorem join_newline {lines : List Text} (nonempty : lines ≠ []) :
    Text.join (utf8 "\n") lines ++ utf8 "\n" = lines.flatMap (· ++ utf8 "\n") := by
  induction lines with
  | nil => contradiction
  | cons line lines inductionHypothesis =>
      cases lines with
      | nil => simp [Text.join]
      | cons next lines =>
          rw [Text.join_cons_cons, List.append_assoc, inductionHypothesis (by simp)]
          simp

theorem enclosed_eq (depth : Nat) (lines : List Text) :
    enclosed depth lines =
      utf8 "ME\n" ++ lines.flatMap (· ++ utf8 "\n") ++ indent depth ++ utf8 "MAY" := by
  cases lines with
  | nil => simp [enclosed]
  | cons line lines =>
      rw [← join_newline (by simp)]
      simp [enclosed]

theorem format_eq (program : Program) :
    program.format = (statements 0 program.statements).flatMap (· ++ utf8 "\n") := by
  unfold Program.format
  cases program.statements with
  | nil => rfl
  | cons node nodes => exact join_newline (by simp [statements])

end Lines

/-- What starts a statement does not belong to the one in front of it. -/
theorem separates_headD (tree : Statements) {next : Terminal} (separates : Separates next) :
    Separates (tree.terminals.headD next) := by
  cases tree with
  | nil => exact separates
  | cons first others =>
      obtain ⟨terminal, rest, whole, starts⟩ := first.starts
      rw [Statements.terminals, whole]
      constructor
      · rintro rfl
        simp [Terminal.kind, Grammar.statementWords, Grammar.formulaStarts] at starts
      · rintro rfl
        simp [Terminal.kind, Grammar.statementWords, Grammar.formulaStarts] at starts

theorem writesWord_terminator : WritesWord (utf8 " IM") [.keyword .terminator] :=
  writes_blank.append_word (writesWord_keyword .terminator)

theorem statement_of_formula (depth : Nat) {node : Node} (isFormula : node.IsFormula) :
    statement depth node = indent depth ++ expression node ++ utf8 " IM" := by
  cases node with
  | number | string | reference | call | binary => rfl
  | unary | block | conditional | declaration | giveBack | program => exact isFormula.elim

section Statements

variable (depth : Nat) (span : Span)

theorem giveBack_readable {value : Node} (isFormula : value.IsFormula) :
    StatementReadable depth (.giveBack span value) := by
  obtain ⟨tree, denotes, greedy, inRange, writes⟩ := expression_readable isFormula
  refine ⟨.giveBack tree true, ?_, fun _ _ => ⟨greedy (.keyword .terminator) (by decide), by simp⟩,
    trivial, ?_, ?_⟩
  · rw [Statement.node, denotes]
    rfl
  · simp only [Statement.terminals, terminator, List.forall_mem_cons, List.forall_mem_append]
    exact ⟨trivial, inRange, trivial, by simp⟩
  · exact (((writes_indent depth).append (writes_keyword_blank .giveBack)).append_word
      writes).append_word writesWord_terminator (by decide)

theorem print_readable {operand : Node} (isFormula : operand.IsFormula) :
    StatementReadable depth (.unary span .print operand) := by
  obtain ⟨tree, denotes, greedy, inRange, writes⟩ := expression_readable isFormula
  refine ⟨.print tree, ?_, fun _ _ => greedy _ (by decide), trivial, ?_, ?_⟩
  · rw [Statement.node, denotes]
    rfl
  · simp only [Statement.terminals, List.forall_mem_cons, List.forall_mem_append]
    exact ⟨trivial, inRange, trivial, by simp⟩
  · have whole := (((writes_indent depth).append (writes_keyword_blank .print)).append_word
      writes).append_word writesWord_terminator (by decide)
    rw [← List.append_assoc (indent depth)] at whole
    exact whole

theorem formula_readable {node : Node} (isFormula : node.IsFormula) :
    StatementReadable depth node := by
  obtain ⟨tree, denotes, greedy, inRange, writes⟩ := expression_readable isFormula
  refine ⟨.formula tree, denotes, fun _ _ => greedy _ (by decide), trivial, ?_, ?_⟩
  · simp only [Statement.terminals, List.forall_mem_cons, List.forall_mem_append]
    exact ⟨inRange, trivial, by simp⟩
  · rw [statement_of_formula depth isFormula]
    exact ((writes_indent depth).append_word writes).append_word writesWord_terminator (by decide)

/-- The sides of an assignment never need parentheses. -/
theorem needsParens_assign {node : Node} (isFormula : node.IsFormula) (isRight : Bool) :
    needsParens .assign isRight node = false := by
  cases node with
  | binary _ operator _ _ =>
      have positive : ∀ operator ∈ binaryOperators, 0 < precedence operator := by decide
      have tight := positive operator isFormula.1
      have loosest : precedence .assign = 0 := rfl
      rw [Bool.eq_false_iff]
      intro needed
      simp only [needsParens, loosest, Nat.not_lt_zero, decide_false, Bool.false_or,
        Bool.and_eq_true, decide_eq_true_eq] at needed
      omega
  | _ => rfl

theorem assignment_readable {left right : Node} (leftFormula : left.IsFormula)
    (rightFormula : right.IsFormula) :
    StatementReadable depth (.binary span .assign left right) := by
  obtain ⟨target, targetDenotes, targetGreedy, targetInRange, targetWrites⟩ :=
    expression_readable leftFormula
  obtain ⟨value, valueDenotes, valueGreedy, valueInRange, valueWrites⟩ :=
    expression_readable rightFormula
  refine ⟨.assignment target value, ?_,
    fun _ _ => ⟨targetGreedy _ (by decide), valueGreedy _ (by decide)⟩, trivial, ?_, ?_⟩
  · rw [Statement.node, targetDenotes, valueDenotes]
    rfl
  · simp only [Statement.terminals, List.forall_mem_cons, List.forall_mem_append]
    exact ⟨targetInRange, trivial, valueInRange, trivial, by simp⟩
  · have sides := ((targetWrites.append writes_blank (by decide)).append writes_assign).append_word
      valueWrites
    have whole := ((writes_indent depth).append_word sides).append_word writesWord_terminator
      (by decide)
    have text : statement depth (.binary span .assign left right) =
        indent depth ++ (expression left ++ utf8 " " ++ utf8 "= " ++ expression right) ++
          utf8 " IM" := by
      simp only [statement, expression, needsParens_assign leftFormula,
        needsParens_assign rightFormula, parenthesized, Bool.false_eq_true, if_false]
      rw [List.append_assoc (expression left ++ utf8 " ")]
      rfl
    rw [text]
    simpa only [Statement.terminals, List.append_assoc, List.cons_append, List.nil_append,
      List.append_nil] using whole

theorem body_readable_some {nodes : List Node} (readable : StatementsReadable (depth + 1) nodes) :
    BodyReadable depth (some (.mk span nodes)) := by
  obtain ⟨tree, denotes, greedy, distinct, inRange, writes⟩ := readable
  refine ⟨tree, ?_, greedy _ (by decide), distinct, ?_, ?_⟩
  · rw [denotes]
    rfl
  · simp only [Derivation.enclosed, List.forall_mem_cons, List.forall_mem_append]
    exact ⟨trivial, inRange, trivial, by simp⟩
  · have opening : Writes (utf8 "ME\n") [.keyword .openBlock] := writes_keyword_newline .openBlock
    have closing : WritesWord (utf8 "MAY") [.keyword .closeBlock] := writesWord_keyword .closeBlock
    have whole := ((opening.append writes).append (writes_indent depth)).append_word closing
    rw [optionalBlock, block, enclosed_eq]
    simpa only [Derivation.enclosed, List.append_nil, List.cons_append, List.nil_append] using whole

theorem writesWord_parameters {parameters : List Text}
    (names : ∀ parameter ∈ parameters, Text.IsName parameter) :
    WritesWord (Text.join (utf8 ", ") parameters) (separated parameters) := by
  fun_induction separated parameters with
  | case1 => exact writes_nil.writesWord
  | case2 name =>
      simpa [Text.join] using writesWord_name (names name (by simp))
  | case3 name next parameters inductionHypothesis =>
      obtain ⟨isName, others⟩ := List.forall_mem_cons.mp names
      rw [Text.join_cons_cons]
      have whole := ((writesWord_name isName).append writes_comma (by decide)).append_word
        (inductionHypothesis others)
      simpa only [List.cons_append, List.nil_append] using whole

theorem separated_inRange (names : List Text) : ∀ terminal ∈ separated names, terminal.InRange := by
  fun_induction separated names with
  | case1 => simp
  | case2 name => simp [Terminal.InRange]
  | case3 name next names inductionHypothesis =>
      exact List.forall_mem_cons.mpr ⟨trivial, List.forall_mem_cons.mpr ⟨trivial, inductionHypothesis⟩⟩

theorem declaration_readable {name : Text} {parameters : List Text} {body : Option Block}
    (isName : Text.IsName name) (names : ∀ parameter ∈ parameters, Text.IsName parameter)
    (distinct : parameters.Nodup) (readable : BodyReadable depth body) :
    StatementReadable depth (.declaration span name parameters body) := by
  obtain ⟨tree, denotes, greedy, bodyDistinct, inRange, writes⟩ := readable
  refine ⟨.declaration name parameters tree false, ?_, fun _ separates => ⟨greedy, fun _ => separates.1⟩,
    ⟨distinct, bodyDistinct⟩, ?_, ?_⟩
  · rw [Statement.node, denotes]
    rfl
  · simp only [Statement.terminals, terminator, List.forall_mem_cons, List.forall_mem_append]
    exact ⟨trivial, trivial, trivial, separated_inRange parameters, trivial, inRange, by simp⟩
  · have word : Writes (utf8 "THE ") [.keyword .function] := writes_keyword_blank .function
    have closing : Writes (utf8 ") ") [.mark .closeParen] := writes_closeParen.append writes_blank
    have header := ((((writes_indent depth).append word).append_word
      (writesWord_name isName)).append writes_openParen (by decide)).append_word
      (writesWord_parameters names)
    have whole := (header.append closing (by decide)).append_word writes
    simpa [statement, Statement.terminals, terminator] using whole

theorem conditional_readable {condition : Node} {body : Option Block} {alternative : Option Node}
    (isFormula : condition.IsFormula) (bodyReadable : BodyReadable depth body)
    (alternativeReadable : AlternativeReadable depth alternative) :
    ∃ tree : Conditional,
      tree.node = (Node.conditional span condition body alternative).erased ∧
      (∀ next, Separates next → tree.Greedy next) ∧ tree.Distinct ∧
      (∀ terminal ∈ tree.terminals, terminal.InRange) ∧
      WritesWord (utf8 "NEU " ++ expression condition ++ utf8 " " ++ optionalBlock depth body ++
        otherwise depth alternative) tree.terminals := by
  obtain ⟨formula, denotes, greedy, inRange, writes⟩ := expression_readable isFormula
  obtain ⟨statements, bodyDenotes, bodyGreedy, bodyDistinct, bodyInRange, bodyWrites⟩ := bodyReadable
  obtain ⟨other, otherDenotes, otherGreedy, otherDistinct, otherInRange, otherWrites⟩ :=
    alternativeReadable
  refine ⟨.mk formula statements other, ?_, ?_, ⟨bodyDistinct, otherDistinct⟩, ?_, ?_⟩
  · rw [Conditional.node, denotes, bodyDenotes, otherDenotes]
    rfl
  · exact fun next separates => ⟨greedy _ (by decide), bodyGreedy, otherGreedy next separates⟩
  · simp only [Conditional.terminals, List.forall_mem_cons, List.forall_mem_append]
    exact ⟨trivial, inRange, bodyInRange, otherInRange⟩
  · have word : Writes (utf8 "NEU ") [.keyword .ifWord] := writes_keyword_blank .ifWord
    have whole := otherWrites (((word.append_word writes).append writes_blank (by decide)).append_word
      bodyWrites)
    simpa [Conditional.terminals] using whole

theorem alternative_readable_none : AlternativeReadable depth none :=
  ⟨.none, rfl, fun _ separates => separates.2, trivial, by simp [Alternative.terminals],
    fun writes => by simpa [otherwise, Alternative.terminals] using writes⟩

theorem alternative_readable_conditional {condition : Node} {body : Option Block}
    {alternative : Option Node} (isFormula : condition.IsFormula)
    (bodyReadable : BodyReadable depth body)
    (alternativeReadable : AlternativeReadable depth alternative) :
    AlternativeReadable depth (some (.conditional span condition body alternative)) := by
  obtain ⟨tree, denotes, greedy, distinct, inRange, writes⟩ :=
    conditional_readable depth span isFormula bodyReadable alternativeReadable
  refine ⟨.conditional tree, ?_, greedy, distinct, ?_, ?_⟩
  · rw [Alternative.node, denotes]
    rfl
  · simp only [Alternative.terminals, List.forall_mem_cons]
    exact ⟨trivial, inRange⟩
  · intro text terminals front
    have word : Writes (utf8 " KOTHI ") [.keyword .elseWord] :=
      writes_blank.append (writes_keyword_blank .elseWord)
    have whole := (front.append word (by decide)).append_word writes
    have text : utf8 " KOTHI NEU " = utf8 " KOTHI " ++ utf8 "NEU " := rfl
    simpa [otherwise, text, Alternative.terminals] using whole

theorem alternative_readable_block {nodes : List Node}
    (readable : StatementsReadable (depth + 1) nodes) :
    AlternativeReadable depth (some (.block (.mk span nodes))) := by
  obtain ⟨tree, denotes, greedy, distinct, inRange, writes⟩ := body_readable_some depth span readable
  refine ⟨.body tree, ?_, fun _ _ => greedy, distinct, ?_, ?_⟩
  · have same : Block.mk .blank tree.nodes = (Block.mk span nodes).erased := Option.some.inj denotes
    rw [Alternative.node, same]
    rfl
  · simp only [Alternative.terminals, List.forall_mem_cons]
    exact ⟨trivial, inRange⟩
  · intro text terminals front
    have word : Writes (utf8 " KOTHI ") [.keyword .elseWord] :=
      writes_blank.append (writes_keyword_blank .elseWord)
    have whole := (front.append word (by decide)).append_word writes
    simpa [otherwise, optionalBlock, Alternative.terminals] using whole

theorem statements_readable_cons {node : Node} {nodes : List Node}
    (first : StatementReadable depth node) (others : StatementsReadable depth nodes) :
    StatementsReadable depth (node :: nodes) := by
  obtain ⟨tree, denotes, greedy, distinct, inRange, writes⟩ := first
  obtain ⟨trees, othersDenote, othersGreedy, othersDistinct, othersInRange, othersWrite⟩ := others
  refine ⟨.cons tree trees, ?_, ?_, ⟨distinct, othersDistinct⟩, ?_, ?_⟩
  · rw [Statements.nodes, denotes, othersDenote]
    rfl
  · exact fun next separates =>
      ⟨greedy _ (separates_headD trees separates), othersGreedy next separates⟩
  · simp only [Statements.terminals, List.forall_mem_append]
    exact ⟨inRange, othersInRange⟩
  · have whole := (writes.append writes_newline (by decide)).append othersWrite
    simpa [statements, Statements.terminals] using whole

end Statements

mutual

theorem statement_readable (depth : Nat) :
    ∀ node : Node, node.IsStatement → StatementReadable depth node
  | .declaration span _ _ body, ⟨isName, names, distinct, isBody⟩ =>
      declaration_readable depth span isName names distinct (body_readable depth body isBody)
  | .giveBack span _, isFormula => giveBack_readable depth span isFormula
  | .conditional span condition body alternative, ⟨isFormula, isBody, isAlternative⟩ => by
      obtain ⟨tree, denotes, greedy, distinct, inRange, writes⟩ :=
        conditional_readable depth span isFormula (body_readable depth body isBody)
          (alternative_readable depth alternative isAlternative)
      refine ⟨.conditional tree false, denotes, ?_, distinct, ?_, ?_⟩
      · exact fun next separates => ⟨greedy next separates, fun _ => separates.1⟩
      · simpa [Statement.terminals, terminator] using inRange
      · have whole := (writes_indent depth).append_word writes
        simpa [statement, Statement.terminals, terminator] using whole
  | .unary span _ _, ⟨same, isFormula⟩ => same ▸ print_readable depth span isFormula
  | .binary span _ _ _, .inl ⟨same, leftFormula, rightFormula⟩ =>
      same ▸ assignment_readable depth span leftFormula rightFormula
  | .binary .., .inr isFormula => formula_readable depth isFormula
  | .number .., isFormula => formula_readable depth isFormula
  | .string .., isFormula => formula_readable depth isFormula
  | .reference .., isFormula => formula_readable depth isFormula
  | .call .., isFormula => formula_readable depth isFormula
  | .block .., isFormula => isFormula.elim
  | .program .., isFormula => isFormula.elim

theorem statements_readable (depth : Nat) :
    ∀ nodes : List Node, Node.AreStatements nodes → StatementsReadable depth nodes
  | [], _ => ⟨.nil, rfl, fun _ _ => trivial, trivial, by simp [Statements.terminals], writes_nil⟩
  | node :: nodes, areStatements =>
      statements_readable_cons depth (statement_readable depth node areStatements.1)
        (statements_readable depth nodes areStatements.2)

theorem body_readable (depth : Nat) :
    ∀ body : Option Block, Block.IsBody body → BodyReadable depth body
  | none, isBody => isBody.elim
  | some (.mk span nodes), areStatements =>
      body_readable_some depth span (statements_readable (depth + 1) nodes areStatements)

theorem alternative_readable (depth : Nat) :
    ∀ alternative : Option Node, Node.IsAlternative alternative → AlternativeReadable depth alternative
  | none, _ => alternative_readable_none depth
  | some (.conditional span _ body alternative), ⟨isFormula, isBody, isAlternative⟩ =>
      alternative_readable_conditional depth span isFormula (body_readable depth body isBody)
        (alternative_readable depth alternative isAlternative)
  | some (.block (.mk span nodes)), areStatements =>
      alternative_readable_block depth span (statements_readable (depth + 1) nodes areStatements)
  | some (.number ..), isAlternative => isAlternative.elim
  | some (.string ..), isAlternative => isAlternative.elim
  | some (.reference ..), isAlternative => isAlternative.elim
  | some (.call ..), isAlternative => isAlternative.elim
  | some (.unary ..), isAlternative => isAlternative.elim
  | some (.binary ..), isAlternative => isAlternative.elim
  | some (.declaration ..), isAlternative => isAlternative.elim
  | some (.giveBack ..), isAlternative => isAlternative.elim
  | some (.program ..), isAlternative => isAlternative.elim

end

end Parlance.Printer
