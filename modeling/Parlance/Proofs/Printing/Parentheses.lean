import Parlance.Proofs.Printing.RoundTrip
import Parlance.Proofs.Scanning.Regions

namespace Parlance

open Parlance.Derivation Scanner Printer

/-!
The printer writes no parenthesis that could be left out. The number of those that
it writes is computed from the tree, and every derivation of the same tree has at
least as many, because a chain of operands holds an operand that binds looser only
inside of a group.
-/

mutual

/-- The opening parentheses in the printed text of a tree. -/
def Node.parens : Node → Nat
  | .call _ _ arguments => 1 + Node.parensAll arguments
  | .unary _ _ operand => operand.parens
  | .binary _ operator left right =>
    (needsParens operator false left).toNat + left.parens +
      ((needsParens operator true right).toNat + right.parens)
  | .block body => body.parens
  | .conditional _ condition body alternative =>
    condition.parens + Block.parensOption body + Node.parensOption alternative
  | .declaration _ _ _ body => 1 + Block.parensOption body
  | .giveBack _ value => value.parens
  | .program _ body => Block.parensOption body
  | _ => 0

def Node.parensAll : List Node → Nat
  | [] => 0
  | node :: nodes => node.parens + Node.parensAll nodes

def Node.parensOption : Option Node → Nat
  | none => 0
  | some node => node.parens

def Block.parens : Block → Nat
  | .mk _ statements => Node.parensAll statements

def Block.parensOption : Option Block → Nat
  | none => 0
  | some body => body.parens

end

namespace Printer

/-- In front of every text, the piece adds so many opening parentheses and no comment. -/
def Opens (piece : Text) (count : Nat) : Prop :=
  ∀ rest, openings .code (piece ++ rest) = count + openings .code rest ∧
    (Commented .code (piece ++ rest) ↔ Commented .code rest)

def isPlain (b : UInt8) : Bool :=
  b != Text.quote && b != Symbol.slash.byte && b != Symbol.openParen.byte

section Pieces

variable {first second : Text} {front back : Nat}

theorem Opens.append (opens : Opens first front) (opens' : Opens second back) :
    Opens (first ++ second) (front + back) := by
  intro rest
  obtain ⟨count, commented⟩ := opens (second ++ rest)
  obtain ⟨count', commented'⟩ := opens' rest
  rw [List.append_assoc, count, count', Nat.add_assoc, commented, commented']
  exact ⟨rfl, .rfl⟩

theorem opens_plain (plain : first.all isPlain = true) : Opens first 0 := by
  intro rest
  simp only [List.all_eq_true, isPlain, Bool.and_eq_true, bne_iff_ne] at plain
  have charted := chart_run (fun b member => (plain b member).1) rest
  refine ⟨?_, by simp [Commented, charted]⟩
  have nothing : (first.map (Region.code, ·)).count (.code, Symbol.openParen.byte) = 0 := by
    rw [List.count_eq_zero, List.mem_map]
    rintro ⟨b, member, same⟩
    exact (plain b member).2 (Prod.mk.inj same).2
  rw [openings, charted, List.count_append, nothing, openings]

theorem opens_word (word : ∀ b ∈ first, Text.isWord b = true) : Opens first 0 := by
  refine opens_plain (List.all_eq_true.mpr fun b member => ?_)
  have checked := Text.forall_byte (fun b => !Text.isWord b || isPlain b) (by decide +kernel) b
  simpa [word b member] using checked

theorem opens_name (isName : Text.IsName first) : Opens first 0 :=
  opens_word (isWord_of_mem_form (.name isName rfl : Form [] .name first) rfl)

theorem opens_number (isNumeral : Text.IsNumeral first) : Opens first 0 :=
  opens_word (isWord_of_mem_form (.number isNumeral rfl : Form [] .number first) rfl)

theorem opens_string (isRaw : Text.IsRawString first) : Opens first 0 := by
  intro rest
  have form : Form rest .string first := .string isRaw
  exact ⟨openings_form form, commented_form form⟩

theorem opens_openParen : Opens (utf8 "(") 1 := by
  intro rest
  have form : Form rest (.mark .openParen) [Symbol.openParen.byte] := .mark .openParen (by simp)
  exact ⟨openings_form form, commented_form form⟩

theorem opens_indent (depth : Nat) : Opens (indent depth) 0 := by
  refine opens_plain ?_
  simp only [indent, Text.repeated, List.all_flatten, List.all_eq_true, List.mem_replicate]
  rintro line ⟨-, rfl⟩
  exact List.all_eq_true.mp (by decide)

/-- The blank keeps a slash from starting a comment. -/
theorem opens_operator {operator : Operator} (binary : operator ∈ binaryOperators) :
    Opens (operator.spelling ++ utf8 " ") 0 := by
  cases operator with
  | divide =>
      intro rest
      have form : Form (utf8 " " ++ rest) (.mark .slash) [Symbol.slash.byte] :=
        .mark .slash fun _ found => absurd (Option.some.inj found) (by decide)
      have blank : Opens (utf8 " ") 0 := opens_plain (by decide)
      obtain ⟨count, commented⟩ := blank rest
      rw [List.append_assoc]
      exact ⟨(openings_form form).trans (by simpa using count), (commented_form form).trans commented⟩
  | assign | print | unknown => simp [binaryOperators, operators] at binary
  | _ => exact opens_plain (by decide)

end Pieces

theorem opens_parenthesized {text : Text} {count : Nat} (opens : Opens text count) (needed : Bool) :
    Opens (parenthesized needed text) (needed.toNat + count) := by
  cases needed with
  | false => simpa [parenthesized] using opens
  | true =>
      have closing : Opens (utf8 ")") 0 := opens_plain (by decide)
      simpa [parenthesized] using (opens_openParen.append opens).append closing

theorem binary_opens (span : Span) {operator : Operator} {left right : Node}
    (sign : Opens (operator.spelling ++ utf8 " ") 0) (leftOpens : Opens (expression left) left.parens)
    (rightOpens : Opens (expression right) right.parens) :
    Opens (expression (.binary span operator left right))
      (Node.parens (.binary span operator left right)) := by
  have blank : Opens (utf8 " ") 0 := opens_plain (by decide)
  have leftOpens := opens_parenthesized leftOpens (needsParens operator false left)
  have rightOpens := opens_parenthesized rightOpens (needsParens operator true right)
  have whole := ((leftOpens.append blank).append sign).append rightOpens
  simpa [expression, Node.parens] using whole

mutual

theorem expression_opens : ∀ node : Node, node.IsFormula → Opens (expression node) node.parens
  | .number .., nonnegative => opens_number (Text.isNumeral_ofInt64 nonnegative)
  | .string .., isRaw => opens_string isRaw
  | .reference .., isName => opens_name isName
  | .call _ _ arguments, ⟨isName, areFormulas⟩ => by
      have closing : Opens (utf8 ")") 0 := opens_plain (by decide)
      have whole := (((opens_name isName).append opens_openParen).append
        (expressions_open arguments areFormulas)).append closing
      simpa [expression, Node.parens] using whole
  | .binary span _ left right, ⟨binary, leftFormula, rightFormula⟩ =>
      binary_opens span (opens_operator binary) (expression_opens left leftFormula)
        (expression_opens right rightFormula)
  | .unary .., isFormula => isFormula.elim
  | .block .., isFormula => isFormula.elim
  | .conditional .., isFormula => isFormula.elim
  | .declaration .., isFormula => isFormula.elim
  | .giveBack .., isFormula => isFormula.elim
  | .program .., isFormula => isFormula.elim

theorem expressions_open : ∀ nodes : List Node, Node.AreFormulas nodes →
    Opens (Text.join (utf8 ", ") (expressions nodes)) (Node.parensAll nodes)
  | [], _ => opens_plain rfl
  | [node], ⟨isFormula, _⟩ => by
      simpa [expressions, Text.join, Node.parensAll] using expression_opens node isFormula
  | node :: next :: nodes, ⟨isFormula, areFormulas⟩ => by
      have comma : Opens (utf8 ", ") 0 := opens_plain (by decide)
      have whole := ((expression_opens node isFormula).append comma).append
        (expressions_open (next :: nodes) areFormulas)
      simpa [expressions, Text.join_cons_cons, Node.parensAll] using whole

end

theorem parameters_open {parameters : List Text}
    (names : ∀ parameter ∈ parameters, Text.IsName parameter) :
    Opens (Text.join (utf8 ", ") parameters) 0 := by
  fun_induction separated parameters with
  | case1 => exact opens_plain rfl
  | case2 name => simpa [Text.join] using opens_name (names name (by simp))
  | case3 name next parameters inductionHypothesis =>
      obtain ⟨isName, others⟩ := List.forall_mem_cons.mp names
      have comma : Opens (utf8 ", ") 0 := opens_plain (by decide)
      rw [Text.join_cons_cons]
      exact ((opens_name isName).append comma).append (inductionHypothesis others)

/-- What makes a line of its own, with its terminator. -/
theorem line_opens (depth : Nat) {text : Text} {count : Nat} (opens : Opens text count) :
    Opens (indent depth ++ text ++ utf8 " IM") count := by
  have ending : Opens (utf8 " IM") 0 := opens_plain (by decide)
  simpa using ((opens_indent depth).append opens).append ending

theorem formula_opens (depth : Nat) {node : Node} (isFormula : node.IsFormula) :
    Opens (statement depth node) node.parens := by
  rw [statement_of_formula depth isFormula]
  exact line_opens depth (expression_opens node isFormula)

theorem enclosed_opens (depth : Nat) {lines : List Text} {count : Nat}
    (opens : Opens (lines.flatMap (· ++ utf8 "\n")) count) :
    Opens (Printer.enclosed depth lines) count := by
  have opening : Opens (utf8 "ME\n") 0 := opens_plain (by decide)
  have closing : Opens (utf8 "MAY") 0 := opens_plain (by decide)
  rw [enclosed_eq]
  simpa using ((opening.append opens).append (opens_indent depth)).append closing

theorem conditional_opens (depth : Nat) {condition : Node} {body : Option Block}
    {alternative : Option Node} (isFormula : condition.IsFormula)
    (bodyOpens : Opens (optionalBlock depth body) (Block.parensOption body))
    (alternativeOpens : Opens (otherwise depth alternative) (Node.parensOption alternative)) :
    Opens (utf8 "NEU " ++ expression condition ++ utf8 " " ++ optionalBlock depth body ++
        otherwise depth alternative)
      (condition.parens + Block.parensOption body + Node.parensOption alternative) := by
  have word : Opens (utf8 "NEU ") 0 := opens_plain (by decide)
  have blank : Opens (utf8 " ") 0 := opens_plain (by decide)
  simpa using (((word.append (expression_opens condition isFormula)).append blank).append
    bodyOpens).append alternativeOpens

mutual

theorem statement_opens (depth : Nat) :
    ∀ node : Node, node.IsStatement → Opens (statement depth node) node.parens
  | .declaration _ _ _ body, ⟨isName, names, _, isBody⟩ => by
      have word : Opens (utf8 "THE ") 0 := opens_plain (by decide)
      have closing : Opens (utf8 ") ") 0 := opens_plain (by decide)
      have header := ((((opens_indent depth).append word).append (opens_name isName)).append
        opens_openParen).append (parameters_open names)
      have whole := (header.append closing).append (body_opens depth body isBody)
      simpa [statement, Node.parens] using whole
  | .giveBack _ value, isFormula => by
      have word : Opens (utf8 "TRA ") 0 := opens_plain (by decide)
      have whole := line_opens depth (word.append (expression_opens value isFormula))
      simpa [statement, Node.parens] using whole
  | .conditional _ _ body alternative, ⟨isFormula, isBody, isAlternative⟩ => by
      have whole := (opens_indent depth).append (conditional_opens depth isFormula
        (body_opens depth body isBody) (alternative_opens depth alternative isAlternative))
      simpa [statement, Node.parens] using whole
  | .unary _ _ operand, ⟨prints, isFormula⟩ => by
      subst prints
      have word : Opens (Operator.print.spelling ++ utf8 " ") 0 := opens_plain (by decide)
      have whole := line_opens depth (word.append (expression_opens operand isFormula))
      simpa [statement, Node.parens] using whole
  | .binary span _ left right, .inl ⟨assigns, leftFormula, rightFormula⟩ => by
      subst assigns
      have sign : Opens (Operator.assign.spelling ++ utf8 " ") 0 := opens_plain (by decide)
      exact line_opens depth (binary_opens span sign (expression_opens left leftFormula)
        (expression_opens right rightFormula))
  | .binary .., .inr isFormula => formula_opens depth isFormula
  | .number .., isFormula => formula_opens depth isFormula
  | .string .., isFormula => formula_opens depth isFormula
  | .reference .., isFormula => formula_opens depth isFormula
  | .call .., isFormula => formula_opens depth isFormula
  | .block .., isStatement => isStatement.elim
  | .program .., isStatement => isStatement.elim

theorem statements_open (depth : Nat) : ∀ nodes : List Node, Node.AreStatements nodes →
    Opens ((statements depth nodes).flatMap (· ++ utf8 "\n")) (Node.parensAll nodes)
  | [], _ => opens_plain rfl
  | node :: nodes, ⟨isStatement, areStatements⟩ => by
      have newline : Opens (utf8 "\n") 0 := opens_plain (by decide)
      have whole := ((statement_opens depth node isStatement).append newline).append
        (statements_open depth nodes areStatements)
      simpa [statements, Node.parensAll] using whole

theorem body_opens (depth : Nat) : ∀ body : Option Block, Block.IsBody body →
    Opens (optionalBlock depth body) (Block.parensOption body)
  | none, isBody => isBody.elim
  | some (.mk _ nodes), areStatements =>
      enclosed_opens depth (statements_open (depth + 1) nodes areStatements)

theorem alternative_opens (depth : Nat) : ∀ alternative : Option Node,
    Node.IsAlternative alternative → Opens (otherwise depth alternative) (Node.parensOption alternative)
  | none, _ => opens_plain rfl
  | some (.conditional _ _ body alternative), ⟨isFormula, isBody, isAlternative⟩ => by
      have word : Opens (utf8 " KOTHI ") 0 := opens_plain (by decide)
      have whole := word.append (conditional_opens depth isFormula (body_opens depth body isBody)
        (alternative_opens depth alternative isAlternative))
      have text : utf8 " KOTHI NEU " = utf8 " KOTHI " ++ utf8 "NEU " := rfl
      simpa [otherwise, text, Node.parensOption, Node.parens] using whole
  | some (.block (.mk _ nodes)), areStatements => by
      have word : Opens (utf8 " KOTHI ") 0 := opens_plain (by decide)
      have whole := word.append
        (enclosed_opens depth (statements_open (depth + 1) nodes areStatements))
      simpa [otherwise, block, Node.parensOption, Node.parens, Block.parens] using whole
  | some (.number ..), isAlternative => isAlternative.elim
  | some (.string ..), isAlternative => isAlternative.elim
  | some (.reference ..), isAlternative => isAlternative.elim
  | some (.call ..), isAlternative => isAlternative.elim
  | some (.unary ..), isAlternative => isAlternative.elim
  | some (.binary ..), isAlternative => isAlternative.elim
  | some (.declaration ..), isAlternative => isAlternative.elim
  | some (.giveBack ..), isAlternative => isAlternative.elim
  | some (.program ..), isAlternative => isAlternative.elim

end

end Printer

/-- The canonical text has the parentheses that its tree needs, and no comment. -/
theorem Program.format_opens {program : Program} (wellFormed : program.WellFormed) :
    openings .code program.format = Node.parensAll program.statements ∧
      ¬Commented .code program.format := by
  have opens := statements_open 0 program.statements wellFormed.areStatements []
  rw [List.append_nil, ← format_eq] at opens
  exact ⟨opens.1, fun commented => by simpa [Commented, chart] using opens.2.mp commented⟩

namespace Derivation

/-- The parenthesis that a formula needs where one of the level is wanted. -/
def extra (level : Nat) (node : Node) : Nat :=
  if level < rank node then 1 else 0

theorem extra_le_one (level : Nat) (node : Node) : extra level node ≤ 1 := by
  unfold extra
  split <;> omega

theorem extra_succ_le (level : Nat) (node : Node) : extra (level + 1) node ≤ extra level node := by
  unfold extra
  split <;> split <;> omega

theorem toNat_eq_extra {level : Nat} {node : Node} {needed : Bool}
    (needs : needed = true ↔ level < rank node) : needed.toNat = extra level node := by
  unfold extra
  cases needed with
  | true => rw [if_pos (needs.mp rfl), Bool.toNat_true]
  | false => rw [if_neg fun looser => Bool.false_ne_true (needs.mpr looser), Bool.toNat_false]

section Operators

variable {level : Nat} {operator : Operator} (binds : operator ∈ operators level)
  {left right : Node}
include binds

theorem extra_binary (span : Span) : extra (level + 1) (.binary span operator left right) = 0 := by
  rw [extra, rank, operatorLevel_of_mem binds, if_neg (Nat.lt_irrefl _)]

theorem parens_binary (span : Span) (leftFormula : left.IsFormula) (rightFormula : right.IsFormula) :
    (Node.binary span operator left right).parens =
      left.parens + extra (level + 1) left + (right.parens + extra level right) := by
  have binary := mem_binaryOperators binds
  have leftNeeds := needsParens_iff binary leftFormula false
  have rightNeeds := needsParens_iff binary rightFormula true
  simp only [operatorLevel_of_mem binds, Bool.false_eq_true, if_false, if_true, Nat.add_zero]
    at leftNeeds rightNeeds
  rw [Node.parens, toNat_eq_extra leftNeeds, toNat_eq_extra rightNeeds]
  omega

end Operators

theorem sign_ne_openParen {level : Nat} {operator : Operator} (binds : operator ∈ operators level) :
    operator.sign ≠ .mark .openParen :=
  (follows_sign binds).1

mutual

/-- A chain of operands holds one that binds looser only inside of a group, and every
group has its parenthesis. -/
theorem Formula.parens_le {level : Nat} (tree : Formula level)
    (sound : ∀ terminal ∈ tree.terminals, terminal.Sound) :
    tree.node.parens + extra level tree.node ≤ tree.terminals.count (.mark .openParen) :=
  match level, tree with
  | _, .number digits => Nat.zero_le _
  | _, .string raw => Nat.zero_le _
  | _, .reference name => Nat.zero_le _
  | _, .call name arguments => by
      simp only [Formula.terminals, List.forall_mem_cons] at sound
      have inside := arguments.parens_le sound.2.2
      have primary : extra 0 (.call .blank name arguments.nodes) = 0 := rfl
      simp only [Formula.node, Node.parens, primary, Formula.terminals, List.count_cons_self,
        List.count_cons_of_ne (by simp : Terminal.name name ≠ .mark .openParen)]
      omega
  | _, .group inner => by
      simp only [Formula.terminals, List.forall_mem_cons, List.forall_mem_append] at sound
      have inside := inner.parens_le sound.2.1
      have single := extra_le_one 0 inner.node
      simp only [Formula.node, Formula.terminals, List.count_cons_self, List.count_append]
      omega
  | _, @Formula.chain level first links => by
      simp only [Formula.terminals, List.forall_mem_append] at sound
      have front := first.parens_le sound.1
      have behind := links.parens_le sound.2 (first.node_isFormula sound.1)
      have looser := extra_succ_le level first.node
      simp only [Formula.node, Formula.terminals, List.count_append]
      omega
termination_by structural tree

theorem Links.parens_le {level : Nat} (links : Links level) {left : Node}
    (sound : ∀ terminal ∈ links.terminals, terminal.Sound) (leftFormula : left.IsFormula) :
    (links.node left).parens + extra (level + 1) (links.node left) ≤
      left.parens + extra (level + 1) left + links.terminals.count (.mark .openParen) :=
  match level, links with
  | _, .done => Nat.le_refl _
  | _, .link operator binds right links => by
      simp only [Links.terminals, List.forall_mem_cons, List.forall_mem_append] at sound
      have rightFormula := right.node_isFormula sound.2.1
      have inside := right.parens_le sound.2.1
      have joined : (Node.binary .blank operator left right.node).IsFormula :=
        ⟨mem_binaryOperators binds, leftFormula, rightFormula⟩
      have behind := links.parens_le sound.2.2 joined
      rw [parens_binary binds .blank leftFormula rightFormula, extra_binary binds] at behind
      simp only [Links.node, Links.terminals, List.count_cons_of_ne (sign_ne_openParen binds),
        List.count_append]
      omega
termination_by structural links

theorem Arguments.parens_le (arguments : Arguments)
    (sound : ∀ terminal ∈ arguments.terminals, terminal.Sound) :
    Node.parensAll arguments.nodes ≤ arguments.terminals.count (.mark .openParen) :=
  match arguments with
  | .none => Nat.zero_le _
  | .some values => values.parens_le sound
termination_by structural arguments

theorem Values.parens_le (values : Values)
    (sound : ∀ terminal ∈ values.terminals, terminal.Sound) :
    Node.parensAll values.nodes ≤ values.terminals.count (.mark .openParen) :=
  match values with
  | .last value => by
      simp only [Values.terminals, List.forall_mem_append] at sound
      have inside := value.parens_le sound.1
      simp only [Values.nodes, Node.parensAll, Values.terminals, List.count_append]
      omega
  | .more value values => by
      simp only [Values.terminals, List.forall_mem_cons, List.forall_mem_append] at sound
      have inside := value.parens_le sound.1
      have behind := values.parens_le sound.2.2
      simp only [Values.nodes, Node.parensAll, Values.terminals, List.count_append, List.count_cons]
      omega
termination_by structural values

end

mutual

theorem Statement.parens_le (tree : Statement)
    (sound : ∀ terminal ∈ tree.terminals, terminal.Sound) :
    tree.node.parens ≤ tree.terminals.count (.mark .openParen) :=
  match tree with
  | .declaration name parameters body terminated => by
      simp only [Statement.terminals, enclosed, List.forall_mem_cons, List.forall_mem_append] at sound
      obtain ⟨_, _, _, _, _, ⟨_, bodySound, _⟩, _⟩ := sound
      have inside := body.parens_le bodySound
      simp only [Statement.node, Node.parens, Block.parensOption, Block.parens, Statement.terminals,
        enclosed, List.count_cons, List.count_append, beq_self_eq_true, if_true]
      omega
  | .giveBack value terminated => by
      simp only [Statement.terminals, List.forall_mem_cons, List.forall_mem_append] at sound
      have inside := value.parens_le sound.2.1
      simp only [Statement.node, Node.parens, Statement.terminals, List.count_cons, List.count_append]
      omega
  | .conditional conditional terminated => by
      simp only [Statement.terminals, List.forall_mem_append] at sound
      have inside := conditional.parens_le sound.1
      simp only [Statement.node, Statement.terminals, List.count_append]
      omega
  | .print operand => by
      simp only [Statement.terminals, List.forall_mem_cons, List.forall_mem_append] at sound
      have inside := operand.parens_le sound.2.1
      simp only [Statement.node, Node.parens, Statement.terminals, List.count_cons, List.count_append]
      omega
  | .formula value => by
      simp only [Statement.terminals, List.forall_mem_append] at sound
      have inside := value.parens_le sound.1
      simp only [Statement.node, Statement.terminals, List.count_append]
      omega
  | .assignment left right => by
      simp only [Statement.terminals, List.forall_mem_cons, List.forall_mem_append] at sound
      have front := left.parens_le sound.1
      have behind := right.parens_le sound.2.2.1
      simp only [Statement.node, Node.parens, Statement.terminals, List.count_cons, List.count_append,
        needsParens_assign (left.node_isFormula sound.1),
        needsParens_assign (right.node_isFormula sound.2.2.1), Bool.toNat_false]
      omega
termination_by structural tree

theorem Conditional.parens_le (tree : Conditional)
    (sound : ∀ terminal ∈ tree.terminals, terminal.Sound) :
    tree.node.parens ≤ tree.terminals.count (.mark .openParen) :=
  match tree with
  | .mk condition body alternative => by
      simp only [Conditional.terminals, enclosed, List.forall_mem_cons, List.forall_mem_append] at sound
      obtain ⟨_, conditionSound, ⟨_, bodySound, _⟩, alternativeSound⟩ := sound
      have front := condition.parens_le conditionSound
      have inside := body.parens_le bodySound
      have behind := alternative.parens_le alternativeSound
      simp only [Conditional.node, Node.parens, Block.parensOption, Block.parens,
        Conditional.terminals, enclosed, List.count_cons, List.count_append]
      omega
termination_by structural tree

theorem Alternative.parens_le (tree : Alternative)
    (sound : ∀ terminal ∈ tree.terminals, terminal.Sound) :
    Node.parensOption tree.node ≤ tree.terminals.count (.mark .openParen) :=
  match tree with
  | .none => Nat.zero_le _
  | .conditional conditional => by
      simp only [Alternative.terminals, List.forall_mem_cons] at sound
      have inside := conditional.parens_le sound.2
      simp only [Alternative.node, Node.parensOption, Alternative.terminals, List.count_cons]
      omega
  | .body body => by
      simp only [Alternative.terminals, enclosed, List.forall_mem_cons, List.forall_mem_append] at sound
      have inside := body.parens_le sound.2.2.1
      simp only [Alternative.node, Node.parensOption, Node.parens, Block.parens,
        Alternative.terminals, enclosed, List.count_cons, List.count_append]
      omega
termination_by structural tree

theorem Statements.parens_le (tree : Statements)
    (sound : ∀ terminal ∈ tree.terminals, terminal.Sound) :
    Node.parensAll tree.nodes ≤ tree.terminals.count (.mark .openParen) :=
  match tree with
  | .nil => Nat.zero_le _
  | .cons first others => by
      simp only [Statements.terminals, List.forall_mem_append] at sound
      have front := first.parens_le sound.1
      have behind := others.parens_le sound.2
      simp only [Statements.nodes, Node.parensAll, Statements.terminals, List.count_append]
      omega
termination_by structural tree

end

end Derivation

theorem count_openParen_terminals (tokens : List Token) :
    (tokens.map Token.kind).count (.mark .openParen) =
      (tokens.map Token.terminal).count (.mark .openParen) := by
  induction tokens with
  | nil => rfl
  | cons token tokens inductionHypothesis =>
      have same : token.kind = .mark .openParen ↔ token.terminal = .mark .openParen :=
        ⟨Token.terminal_of_mark, Token.kind_of_terminal⟩
      simp only [List.map_cons, List.count_cons, inductionHypothesis, beq_iff_eq, same]

/-- A source has at least the parentheses that its tree needs. -/
theorem parens_le_of_parse {file source : Text} {program : Program}
    (accepted : parse file source = .ok program) :
    Node.parensAll program.erased.statements ≤ openings .code source := by
  obtain ⟨derivation, spelled, valid, denoted⟩ := derivation_of_parse accepted
  obtain ⟨tokens, scanned, mapped⟩ := scan_of_spells file .origin 0 spelled
  have needed := derivation.parens_le fun terminal member =>
    ⟨spelled.spellable terminal member, valid.inRange terminal member⟩
  rw [← count_openParen_of_tokenize scanned, count_openParen_terminals, mapped, List.count_append,
    denoted]
  exact Nat.le_add_right_of_le needed

theorem openings_format {program : Program} (wellFormed : program.WellFormed) :
    openings .code program.format = Node.parensAll program.erased.statements := by
  rw [← program.format_erased]
  exact (Program.format_opens (program.wellFormed_erased.mpr wellFormed)).1

/-- A parenthesis that is taken out with its partner is missing, whatever the text becomes. -/
theorem openings_erase_pair {file front inside behind : Text} {tokens : List Token}
    {opening closing : Token}
    (scanned : tokenize file (front ++ utf8 "(" ++ inside ++ utf8 ")" ++ behind) = .ok tokens)
    (openingMember : opening ∈ tokens) (closingMember : closing ∈ tokens)
    (opens : opening.kind = .mark .openParen) (closes : closing.kind = .mark .closeParen)
    (openingPlace : opening.offset = front.length)
    (closingPlace : closing.offset = (front ++ utf8 "(" ++ inside).length) :
    openings .code (front ++ inside ++ behind) <
      openings .code (front ++ utf8 "(" ++ inside ++ utf8 ")" ++ behind) := by
  have atOpening : front ++ utf8 "(" ++ inside ++ utf8 ")" ++ behind =
      front ++ Symbol.openParen.byte :: (inside ++ utf8 ")" ++ behind) := by
    simp only [List.append_assoc]
    rfl
  have atClosing : front ++ utf8 "(" ++ inside ++ utf8 ")" ++ behind =
      front ++ utf8 "(" ++ inside ++ Symbol.closeParen.byte :: behind := by
    rw [List.append_assoc _ (utf8 ")")]
    rfl
  have opened : Region.code.past front (some Symbol.openParen.byte) = .code :=
    past_of_token (atOpening ▸ scanned) openingMember openingPlace (by simp [opens])
  have closed : Region.code.past (front ++ utf8 "(" ++ inside) (some Symbol.closeParen.byte) = .code :=
    past_of_token (atClosing ▸ scanned) closingMember closingPlace (by simp [closes])
  have first := openings_erase .code _ behind closed (by decide)
  have second := openings_erase .code front (inside ++ behind) opened (by decide)
  have between : front ++ utf8 "(" ++ inside ++ behind =
      front ++ Symbol.openParen.byte :: (inside ++ behind) := by
    simp only [List.append_assoc]
    rfl
  rw [← atClosing, between] at first
  rw [← List.append_assoc, if_pos rfl] at second
  omega

/-- No text that is read as the same program has fewer parentheses than the canonical one,
and so none of those can be taken out of it together with its partner. -/
theorem format_fewest_parens {file source : Text} {program : Program}
    (accepted : parse file source = .ok program) (other : Text) :
    ∃ tokens, tokenize other program.format = .ok tokens ∧
      (∀ file' source' again tokens', parse file' source' = .ok again →
        again.erased = program.erased → tokenize file' source' = .ok tokens' →
        (tokens.map Token.kind).count (.mark .openParen) ≤
          (tokens'.map Token.kind).count (.mark .openParen)) ∧
      ∀ opening ∈ tokens, ∀ closing ∈ tokens, opening.kind = .mark .openParen →
        closing.kind = .mark .closeParen → ∀ front inside behind,
        program.format = front ++ utf8 "(" ++ inside ++ utf8 ")" ++ behind →
        opening.offset = front.length → closing.offset = (front ++ utf8 "(" ++ inside).length →
        ∀ file' again, parse file' (front ++ inside ++ behind) = .ok again →
          again.erased ≠ program.erased := by
  have wellFormed := wellFormed_of_parse accepted
  have written := openings_format wellFormed
  obtain ⟨again, reread, -⟩ := parse_format other wellFormed
  obtain ⟨tokens, scanned, -⟩ := parse_eq_ok_iff.mp reread
  refine ⟨tokens, scanned, ?_, ?_⟩
  · intro file' source' again tokens' accepted' same scanned'
    rw [count_openParen_of_tokenize scanned, count_openParen_of_tokenize scanned', written, ← same]
    exact parens_le_of_parse accepted'
  · intro opening openingMember closing closingMember opens closes front inside behind whole
      openingPlace closingPlace file' again accepted' same
    rw [whole] at scanned written
    have fewer := openings_erase_pair scanned openingMember closingMember opens closes openingPlace
      closingPlace
    have needed := parens_le_of_parse accepted'
    rw [same] at needed
    omega

theorem format_fewest_parens_right :
    let program : Program := ⟨.blank, some (.mk .blank [
      .binary .blank .subtract (.reference .blank (utf8 "a"))
        (.binary .blank .subtract (.reference .blank (utf8 "b")) (.number .blank 1))])⟩
    ∃ again tokens, parse [] program.format = .ok again ∧ tokenize [] again.format = .ok tokens ∧
      (tokens.map Token.kind).count (.mark .openParen) = 1 ∧
      ∀ file source other tokens', parse file source = .ok other → other.erased = again.erased →
        tokenize file source = .ok tokens' →
        1 ≤ (tokens'.map Token.kind).count (.mark .openParen) := by
  intro program
  obtain ⟨again, accepted, same⟩ := parse_format [] (by decide +kernel : program.WellFormed)
  obtain ⟨tokens, scanned, fewest, -⟩ := format_fewest_parens accepted []
  have single : (tokens.map Token.kind).count (.mark .openParen) = 1 := by
    rw [count_openParen_of_tokenize scanned, openings_format (wellFormed_of_parse accepted), same]
    rfl
  exact ⟨again, tokens, accepted, scanned, single, single ▸ fewest⟩

end Parlance
