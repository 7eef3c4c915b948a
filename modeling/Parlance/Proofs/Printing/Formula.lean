import Parlance.Proofs.Printing.Writing
import Parlance.Proofs.Text.Split
import Parlance.Proofs.WellFormed

namespace Parlance

open Parlance.Derivation Scanner

/-!
The printed text of a formula is read back. Where the printer leaves out
parentheses, the levels of the grammar put the operands together again: the
text of an operator is a chain of its own level, and the text of any formula
is a chain of every looser level.
-/

namespace Derivation

/-- The level at which an operator joins its operands. -/
def operatorLevel : Operator → Nat
  | .multiply | .divide => 0
  | .add | .subtract => 1
  | _ => 2

theorem mem_operators_operatorLevel {operator : Operator} (binary : operator ∈ binaryOperators) :
    operator ∈ operators (operatorLevel operator) := by
  have checked : ∀ operator ∈ binaryOperators, operator ∈ operators (operatorLevel operator) := by
    decide
  exact checked operator binary

theorem operatorLevel_of_mem {level : Nat} {operator : Operator}
    (binds : operator ∈ operators level) : operatorLevel operator = level := by
  match level with
  | 0 => exact (by decide : ∀ operator ∈ operators 0, operatorLevel operator = 0) operator binds
  | 1 => exact (by decide : ∀ operator ∈ operators 1, operatorLevel operator = 1) operator binds
  | 2 => exact (by decide : ∀ operator ∈ operators 2, operatorLevel operator = 2) operator binds
  | _ + 3 => contradiction

/-- The sign of an operator may stand behind its operands. -/
theorem follows_sign {level : Nat} {operator : Operator} (binds : operator ∈ operators level) :
    Follows level operator.sign := by
  have noParen : ∀ operator ∈ binaryOperators, operator.sign ≠ .mark .openParen := by decide
  refine ⟨noParen operator (mem_binaryOperators binds), ?_⟩
  intro lower below other binds' same
  have sameOperator := sign_injective (mem_binaryOperators binds) (mem_binaryOperators binds') same
  have sameLevel := operatorLevel_of_mem binds
  rw [sameOperator, operatorLevel_of_mem binds'] at sameLevel
  omega

/-- The links of a chain fit together and end where the next terminal cannot
belong to the last operand. Unlike in a greedy chain, one more link may follow. -/
def Links.Linked : {level : Nat} → Links level → Terminal → Prop
  | _, .done, _ => True
  | _, .link _ _ right links, next =>
    right.Greedy (links.terminals.headD next) ∧ links.Linked next

theorem Links.greedy_of_linked {level : Nat} {links : Links level} {next : Terminal}
    (linked : links.Linked next) (ends : ∀ operator ∈ operators level, next ≠ operator.sign) :
    links.Greedy next := by
  fun_induction Links.Linked links next with
  | case1 => exact ends
  | case2 level operator binds right links next inductionHypothesis =>
      exact ⟨linked.1, inductionHypothesis linked.2 ends⟩

/-- One more link at the end of a chain. -/
def Links.snoc : {level : Nat} → Links level → (operator : Operator) →
    operator ∈ operators level → Formula level → Links level
  | _, .done, operator, binds, right => .link operator binds right .done
  | _, .link other binds' first links, operator, binds, right =>
    .link other binds' first (links.snoc operator binds right)

section Snoc

variable {level : Nat} (links : Links level) {operator : Operator}
  (binds : operator ∈ operators level) (right : Formula level)

theorem Links.terminals_snoc :
    (links.snoc operator binds right).terminals =
      links.terminals ++ operator.sign :: right.terminals := by
  fun_induction Links.snoc links operator binds right with
  | case1 => simp [Links.terminals]
  | case2 level other binds' first links operator binds right inductionHypothesis =>
      simp [Links.terminals, inductionHypothesis]

theorem Links.node_snoc (left : Node) :
    (links.snoc operator binds right).node left =
      .binary .blank operator (links.node left) right.node := by
  fun_induction Links.snoc links operator binds right generalizing left with
  | case1 => rfl
  | case2 level other binds' first links operator binds right inductionHypothesis =>
      simp only [Links.node, inductionHypothesis]

theorem Links.linked_snoc {next : Terminal} (linked : links.Linked operator.sign)
    (greedy : right.Greedy next) : (links.snoc operator binds right).Linked next := by
  fun_induction Links.snoc links operator binds right with
  | case1 => exact ⟨greedy, trivial⟩
  | case2 level other binds' first links operator binds right inductionHypothesis =>
      refine ⟨?_, inductionHypothesis linked.2 greedy⟩
      rw [links.terminals_snoc, headD_append]
      exact linked.1

end Snoc

end Derivation

namespace Printer

/-- The text is read as a formula of the level that denotes the node. -/
def Readable (level : Nat) (node : Node) (text : Text) : Prop :=
  ∃ tree : Formula level, tree.node = node.erased ∧
    (∀ next, Follows level next → tree.Greedy next) ∧
    (∀ terminal ∈ tree.terminals, terminal.InRange) ∧ WritesWord text tree.terminals

/-- The text is read as a chain of operands of the level, to which one more
operand may be added. -/
def Chained (level : Nat) (node : Node) (text : Text) : Prop :=
  ∃ (first : Formula level) (links : Links level), links.node first.node = node.erased ∧
    (∀ next, Follows level next →
      first.Greedy (links.terminals.headD next) ∧ links.Linked next) ∧
    (∀ terminal ∈ first.terminals ++ links.terminals, terminal.InRange) ∧
    WritesWord text (first.terminals ++ links.terminals)

section Levels

variable {level : Nat} {node : Node} {text : Text}

theorem Readable.chained (readable : Readable level node text) : Chained level node text := by
  obtain ⟨tree, denotes, greedy, inRange, writes⟩ := readable
  refine ⟨tree, .done, denotes, fun next follows => ⟨greedy next follows, trivial⟩, ?_⟩
  simpa [Links.terminals] using ⟨inRange, writes⟩

theorem Chained.readable (chained : Chained level node text) : Readable (level + 1) node text := by
  obtain ⟨first, links, denotes, linked, inRange, writes⟩ := chained
  refine ⟨.chain first links, denotes, ?_, inRange, writes⟩
  intro next follows
  obtain ⟨greedy, linked⟩ := linked next (follows.mono (Nat.le_succ level))
  exact ⟨greedy, Links.greedy_of_linked linked (follows.2 level (Nat.lt_succ_self level))⟩

theorem Readable.mono {higher : Nat} (readable : Readable level node text)
    (below : level ≤ higher) : Readable higher node text := by
  induction below with
  | refl => exact readable
  | step _ inductionHypothesis => exact inductionHypothesis.chained.readable

theorem Chained.mono {higher : Nat} (chained : Chained level node text)
    (below : level ≤ higher) : Chained higher node text := by
  induction below with
  | refl => exact chained
  | step _ inductionHypothesis => exact inductionHypothesis.readable.chained

end Levels

/-- An operator between a chain of its level and one more operand. -/
theorem Chained.join {level : Nat} {operator : Operator} (binds : operator ∈ operators level)
    {left right : Node} {leftText rightText : Text} (span : Span)
    (leftChained : Chained level left leftText) (rightReadable : Readable level right rightText) :
    Chained level (.binary span operator left right)
      (leftText ++ utf8 " " ++ operator.spelling ++ utf8 " " ++ rightText) := by
  obtain ⟨first, links, leftDenotes, linked, leftInRange, leftWrites⟩ := leftChained
  obtain ⟨tree, rightDenotes, greedy, rightInRange, rightWrites⟩ := rightReadable
  obtain ⟨firstGreedy, linksLinked⟩ := linked operator.sign (follows_sign binds)
  refine ⟨first, links.snoc operator binds tree, ?_, ?_, ?_, ?_⟩
  · rw [links.node_snoc, leftDenotes, rightDenotes]
    rfl
  · intro next follows
    rw [links.terminals_snoc, headD_append]
    exact ⟨firstGreedy, links.linked_snoc binds tree linksLinked (greedy next follows)⟩
  · rw [links.terminals_snoc, ← List.append_assoc]
    simp only [List.forall_mem_append, List.forall_mem_cons] at leftInRange ⊢
    exact ⟨leftInRange, operator.sign_inRange, rightInRange⟩
  · have whole := ((leftWrites.append writes_blank (by decide)).append
      (writes_operator (mem_binaryOperators binds))).append_word rightWrites
    rw [links.terminals_snoc]
    simpa only [List.append_assoc, List.append_nil, List.cons_append, List.nil_append] using whole

/-- Parentheses make a primary of any formula. -/
theorem Readable.group {node : Node} {text : Text} (readable : Readable comparison node text) :
    Readable 0 node (utf8 "(" ++ text ++ utf8 ")") := by
  obtain ⟨tree, denotes, greedy, inRange, writes⟩ := readable
  refine ⟨.group tree, denotes, fun _ _ => greedy _ (by decide), ?_, ?_⟩
  · simp only [Formula.terminals, List.forall_mem_cons, List.forall_mem_append]
    exact ⟨trivial, inRange, trivial, by simp⟩
  · exact ((writes_openParen.append_word writes).append writes_closeParen (by decide)).writesWord

/-- The lowest level at which the printed text of a formula is read. -/
def rank : Node → Nat
  | .binary _ operator _ _ => operatorLevel operator + 1
  | _ => 0

theorem precedence_add_operatorLevel {operator : Operator} (binary : operator ∈ binaryOperators) :
    precedence operator + operatorLevel operator = 3 := by
  have checked : ∀ operator ∈ binaryOperators,
      precedence operator + operatorLevel operator = 3 := by decide
  exact checked operator binary

/-- Parentheses are written exactly where the grammar needs them: around a
left operand that is no chain of the level, and around a right operand that
does not bind tighter. -/
theorem needsParens_iff {operator : Operator} (binary : operator ∈ binaryOperators) {node : Node}
    (isFormula : node.IsFormula) (isRight : Bool) :
    needsParens operator isRight node = true ↔
      operatorLevel operator + (if isRight then 0 else 1) < rank node := by
  cases node with
  | binary span child left right =>
      have parent := precedence_add_operatorLevel binary
      have inner := precedence_add_operatorLevel isFormula.1
      cases isRight <;> simp [needsParens, rank] <;> omega
  | _ => simp [needsParens, rank]

theorem rank_le {node : Node} (isFormula : node.IsFormula) : rank node ≤ comparison := by
  cases node with
  | binary span operator left right =>
      have sum := precedence_add_operatorLevel isFormula.1
      have positive : ∀ operator ∈ binaryOperators, 0 < precedence operator := by decide
      have := positive operator isFormula.1
      simp only [rank, comparison]
      omega
  | _ => simp [rank]

/-- The printed text of a formula is read at every level from its rank on. -/
structure Printable (node : Node) : Prop where
  readable : ∀ level, rank node ≤ level → Readable level node (expression node)
  chained : ∀ level, rank node ≤ level + 1 → Chained level node (expression node)

theorem Printable.of_primary {node : Node} (readable : Readable 0 node (expression node)) :
    Printable node :=
  ⟨fun level _ => readable.mono (Nat.zero_le level),
    fun level _ => (readable.mono (Nat.zero_le level)).chained⟩

theorem Printable.of_binary {span : Span} {operator : Operator} {left right : Node}
    (chained : Chained (operatorLevel operator) (.binary span operator left right)
      (expression (.binary span operator left right))) :
    Printable (.binary span operator left right) :=
  ⟨fun _ above => chained.readable.mono above,
    fun _ above => chained.mono (Nat.le_of_succ_le_succ above)⟩

section Operands

variable {operator : Operator} (binary : operator ∈ binaryOperators) {node : Node}
  (isFormula : node.IsFormula) (printable : Printable node)
include binary isFormula printable

theorem rightOperand_readable :
    Readable (operatorLevel operator) node
      (parenthesized (needsParens operator true node) (expression node)) := by
  cases needed : needsParens operator true node with
  | true => exact (printable.readable _ (rank_le isFormula)).group.mono (Nat.zero_le _)
  | false =>
      apply printable.readable
      have tight := mt (needsParens_iff binary isFormula true).mpr (by simp [needed])
      simp only [if_true] at tight
      omega

theorem leftOperand_chained :
    Chained (operatorLevel operator) node
      (parenthesized (needsParens operator false node) (expression node)) := by
  cases needed : needsParens operator false node with
  | true => exact ((printable.readable _ (rank_le isFormula)).group.mono (Nat.zero_le _)).chained
  | false =>
      apply printable.chained
      have tight := mt (needsParens_iff binary isFormula false).mpr (by simp [needed])
      simp only [Bool.false_eq_true, if_false] at tight
      omega

end Operands

/-- The printed arguments of a call, up to its closing parenthesis. -/
def ArgumentsReadable (nodes : List Node) : Prop :=
  ∃ arguments : Arguments, arguments.nodes = Node.erasedAll nodes ∧ arguments.Greedy ∧
    (∀ terminal ∈ arguments.terminals, terminal.InRange) ∧
    Writes (Text.join (utf8 ", ") (expressions nodes) ++ utf8 ")") arguments.terminals

/-- Printed arguments, of which there is at least one. -/
def ValuesReadable (nodes : List Node) : Prop :=
  ∃ values : Values, values.nodes = Node.erasedAll nodes ∧ values.Greedy ∧
    (∀ terminal ∈ values.terminals, terminal.InRange) ∧
    Writes (Text.join (utf8 ", ") (expressions nodes) ++ utf8 ")") values.terminals

theorem argumentsReadable_of_values {nodes : List Node}
    (readable : nodes ≠ [] → ValuesReadable nodes) : ArgumentsReadable nodes := by
  cases nodes with
  | nil =>
      exact ⟨.none, rfl, trivial, by simp [Arguments.terminals, Terminal.InRange], writes_closeParen⟩
  | cons node nodes =>
      obtain ⟨values, properties⟩ := readable (by simp)
      exact ⟨.some values, properties⟩

theorem valuesReadable_last {node : Node}
    (readable : Readable comparison node (expression node)) : ValuesReadable [node] := by
  obtain ⟨tree, denotes, greedy, inRange, writes⟩ := readable
  refine ⟨.last tree, ?_, greedy _ (by decide), ?_, ?_⟩
  · simp only [Values.nodes, denotes, Node.erasedAll]
  · simp only [Values.terminals, List.forall_mem_cons, List.forall_mem_append]
    exact ⟨inRange, trivial, by simp⟩
  · simpa [Values.terminals, expressions, Text.join] using
      writes.append writes_closeParen (by decide)

theorem valuesReadable_more {node next : Node} {nodes : List Node}
    (readable : Readable comparison node (expression node))
    (others : ValuesReadable (next :: nodes)) : ValuesReadable (node :: next :: nodes) := by
  obtain ⟨tree, denotes, greedy, inRange, writes⟩ := readable
  obtain ⟨values, othersDenote, othersGreedy, othersInRange, othersWrite⟩ := others
  refine ⟨.more tree values, ?_, ⟨greedy _ (by decide), othersGreedy⟩, ?_, ?_⟩
  · rw [Values.nodes, denotes, othersDenote]
    rfl
  · simp only [Values.terminals, List.forall_mem_cons, List.forall_mem_append]
    exact ⟨inRange, trivial, othersInRange⟩
  · have whole := (writes.append writes_comma (by decide)).append othersWrite
    rw [expressions, expressions, Text.join_cons_cons, ← expressions]
    simpa only [Values.terminals, List.append_assoc, List.cons_append, List.nil_append] using whole

theorem number_readable (span : Span) {value : Int64} (nonnegative : 0 ≤ value.toInt) :
    Readable 0 (.number span value) (Text.ofInt64 value) := by
  have read := Text.toInt64?_ofInt64 nonnegative
  refine ⟨.number (Text.ofInt64 value), ?_, fun _ _ => trivial, ?_, ?_⟩
  · simp only [Formula.node, read, Option.getD_some, Node.erased]
  · simp [Formula.terminals, Terminal.InRange, read]
  · exact writesWord_number (Text.isNumeral_ofInt64 nonnegative)

theorem string_readable (span : Span) {raw : Text} (isRaw : Text.IsRawString raw) :
    Readable 0 (.string span raw) raw := by
  refine ⟨.string raw, rfl, fun _ _ => trivial, ?_, (writes_string isRaw).writesWord⟩
  simp [Formula.terminals, Terminal.InRange]

theorem reference_readable (span : Span) {name : Text} (isName : Text.IsName name) :
    Readable 0 (.reference span name) name := by
  refine ⟨.reference name, rfl, fun _ follows => follows.1, ?_, writesWord_name isName⟩
  simp [Formula.terminals, Terminal.InRange]

theorem call_readable (span : Span) {name : Text} (isName : Text.IsName name) {nodes : List Node}
    (readable : ArgumentsReadable nodes) :
    Readable 0 (.call span name nodes) (expression (.call span name nodes)) := by
  obtain ⟨arguments, denotes, greedy, inRange, writes⟩ := readable
  refine ⟨.call name arguments, ?_, fun _ _ => greedy, ?_, ?_⟩
  · simp only [Formula.node, denotes, Node.erased]
  · simp only [Formula.terminals, List.forall_mem_cons]
    exact ⟨trivial, trivial, inRange⟩
  · have whole := ((writesWord_name isName).append writes_openParen (by decide)).append writes
    rw [expression, List.append_assoc]
    exact whole.writesWord

mutual

theorem expression_printable : ∀ node : Node, node.IsFormula → Printable node
  | .number span _, nonnegative => .of_primary (number_readable span nonnegative)
  | .string span _, isRaw => .of_primary (string_readable span isRaw)
  | .reference span _, isName => .of_primary (reference_readable span isName)
  | .call span _ arguments, isFormula =>
      .of_primary (call_readable span isFormula.1
        (argumentsReadable_of_values (values_readable arguments isFormula.2)))
  | .binary span operator left right, isFormula => by
      obtain ⟨binary, leftFormula, rightFormula⟩ := isFormula
      apply Printable.of_binary
      rw [expression]
      exact Chained.join (mem_operators_operatorLevel binary) span
        (leftOperand_chained binary leftFormula (expression_printable left leftFormula))
        (rightOperand_readable binary rightFormula (expression_printable right rightFormula))
  | .unary .., isFormula => isFormula.elim
  | .block .., isFormula => isFormula.elim
  | .conditional .., isFormula => isFormula.elim
  | .declaration .., isFormula => isFormula.elim
  | .giveBack .., isFormula => isFormula.elim
  | .program .., isFormula => isFormula.elim

theorem values_readable :
    ∀ nodes : List Node, Node.AreFormulas nodes → nodes ≠ [] → ValuesReadable nodes
  | [], _, nonempty => absurd rfl nonempty
  | [node], areFormulas, _ =>
      valuesReadable_last
        ((expression_printable node areFormulas.1).readable _ (rank_le areFormulas.1))
  | node :: next :: nodes, areFormulas, _ =>
      valuesReadable_more
        ((expression_printable node areFormulas.1).readable _ (rank_le areFormulas.1))
        (values_readable (next :: nodes) areFormulas.2 (by simp))

end

theorem expression_readable {node : Node} (isFormula : node.IsFormula) :
    Readable comparison node (expression node) :=
  (expression_printable node isFormula).readable _ (rank_le isFormula)

end Printer

end Parlance
