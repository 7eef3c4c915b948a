import Parlance.Proofs.Source
import Parlance.Proofs.Scanning.Numeral

namespace Parlance

open Parlance.Derivation

/-!
Well-formed trees: those that have a source text. A tree may be put together
freely, and most of those that can be are nothing the grammar could build. The
trees of this module keep formulas, statements and blocks where they belong.
-/

mutual

/-- Literals, references, calls, and operators that yield a value. -/
def Node.IsFormula : Node → Prop
  | .number _ value => 0 ≤ value.toInt
  | .string _ raw => Text.IsRawString raw
  | .reference _ name => Text.IsName name
  | .call _ name arguments => Text.IsName name ∧ Node.AreFormulas arguments
  | .binary _ operator left right =>
    operator ∈ binaryOperators ∧ left.IsFormula ∧ right.IsFormula
  | _ => False

def Node.AreFormulas : List Node → Prop
  | [] => True
  | node :: nodes => node.IsFormula ∧ Node.AreFormulas nodes

end

mutual

/-- Assignments and prints are statements, and so is every formula. A block
is none. -/
def Node.IsStatement : Node → Prop
  | .declaration _ name parameters body =>
    Text.IsName name ∧ (∀ parameter ∈ parameters, Text.IsName parameter) ∧ parameters.Nodup ∧
      Block.IsBody body
  | .giveBack _ value => value.IsFormula
  | .conditional _ condition body alternative =>
    condition.IsFormula ∧ Block.IsBody body ∧ Node.IsAlternative alternative
  | .unary _ operator operand => operator = .print ∧ operand.IsFormula
  | .binary span operator left right =>
    (operator = .assign ∧ left.IsFormula ∧ right.IsFormula) ∨
      Node.IsFormula (.binary span operator left right)
  | node => node.IsFormula

def Node.AreStatements : List Node → Prop
  | [] => True
  | node :: nodes => node.IsStatement ∧ Node.AreStatements nodes

def Block.IsBody : Option Block → Prop
  | none => False
  | some (.mk _ statements) => Node.AreStatements statements

/-- Nothing, another conditional, or a block. -/
def Node.IsAlternative : Option Node → Prop
  | none => True
  | some (.conditional _ condition body alternative) =>
    condition.IsFormula ∧ Block.IsBody body ∧ Node.IsAlternative alternative
  | some (.block (.mk _ statements)) => Node.AreStatements statements
  | some _ => False

end

def Program.WellFormed (program : Program) : Prop :=
  Block.IsBody program.body

theorem Program.WellFormed.areStatements {program : Program} (wellFormed : program.WellFormed) :
    Node.AreStatements program.statements := by
  obtain ⟨_, body⟩ := program
  cases body with
  | none => exact wellFormed.elim
  | some block =>
      obtain ⟨_, nodes⟩ := block
      exact wellFormed

/-- What has to be shown of well-formed trees, form by form. -/
structure TreeInduction (statement : Node → Prop) (statements : List Node → Prop)
    (alternative : Option Node → Prop) : Prop where
  formula (node : Node) : node.IsFormula → statement node
  assignment (span : Span) (left right : Node) : left.IsFormula → right.IsFormula →
    statement (.binary span .assign left right)
  print (span : Span) (operand : Node) : operand.IsFormula → statement (.unary span .print operand)
  giveBack (span : Span) (value : Node) : value.IsFormula → statement (.giveBack span value)
  conditional (span : Span) (condition : Node) (place : Span) (nodes : List Node)
    (other : Option Node) : condition.IsFormula → statements nodes → alternative other →
    statement (.conditional span condition (some (.mk place nodes)) other)
  declaration (span : Span) (name : Text) (parameters : List Text) (place : Span)
    (nodes : List Node) : Node.AreStatements nodes → statements nodes →
    statement (.declaration span name parameters (some (.mk place nodes)))
  nil : statements []
  cons (node : Node) (nodes : List Node) : Node.AreStatements nodes → statement node →
    statements nodes → statements (node :: nodes)
  nothing : alternative none
  chained (span : Span) (condition : Node) (body : Option Block) (other : Option Node) :
    statement (.conditional span condition body other) →
      alternative (some (.conditional span condition body other))
  block (place : Span) (nodes : List Node) : statements nodes →
    alternative (some (.block (.mk place nodes)))

namespace TreeInduction

variable {statement : Node → Prop} {statements : List Node → Prop}
  {alternative : Option Node → Prop}

mutual

theorem ofStatement (shown : TreeInduction statement statements alternative) :
    ∀ node : Node, node.IsStatement → statement node
  | .declaration _ _ _ (some (.mk _ nodes)), isStatement =>
      shown.declaration _ _ _ _ nodes isStatement.2.2.2
        (shown.ofStatements nodes isStatement.2.2.2)
  | .giveBack _ value, isFormula => shown.giveBack _ value isFormula
  | .conditional _ condition (some (.mk _ nodes)) other, ⟨isFormula, areStatements, isAlternative⟩ =>
      shown.conditional _ condition _ nodes other isFormula (shown.ofStatements nodes areStatements)
        (shown.ofAlternative other isAlternative)
  | .unary _ _ operand, ⟨prints, isFormula⟩ => prints ▸ shown.print _ operand isFormula
  | .binary _ _ left right, .inl ⟨assigns, leftFormula, rightFormula⟩ =>
      assigns ▸ shown.assignment _ left right leftFormula rightFormula
  | .binary span operator left right, .inr isFormula =>
      shown.formula (.binary span operator left right) isFormula
  | .number span value, isFormula => shown.formula (.number span value) isFormula
  | .string span raw, isFormula => shown.formula (.string span raw) isFormula
  | .reference span name, isFormula => shown.formula (.reference span name) isFormula
  | .call span name arguments, isFormula => shown.formula (.call span name arguments) isFormula

theorem ofStatements (shown : TreeInduction statement statements alternative) :
    ∀ nodes : List Node, Node.AreStatements nodes → statements nodes
  | [], _ => shown.nil
  | node :: nodes, ⟨isStatement, areStatements⟩ =>
      shown.cons node nodes areStatements (shown.ofStatement node isStatement)
        (shown.ofStatements nodes areStatements)

theorem ofAlternative (shown : TreeInduction statement statements alternative) :
    ∀ node : Option Node, Node.IsAlternative node → alternative node
  | none, _ => shown.nothing
  | some (.conditional span condition body other), isAlternative =>
      shown.chained span condition body other
        (shown.ofStatement (.conditional span condition body other) isAlternative)
  | some (.block (.mk place nodes)), areStatements =>
      shown.block place nodes (shown.ofStatements nodes areStatements)

end

end TreeInduction

section Decidable

mutual

def Node.decidableIsFormula : (node : Node) → Decidable node.IsFormula
  | .number _ value => inferInstanceAs (Decidable (0 ≤ value.toInt))
  | .string _ raw => inferInstanceAs (Decidable (Text.IsRawString raw))
  | .reference _ name => inferInstanceAs (Decidable (Text.IsName name))
  | .call _ _ arguments =>
    have := Node.decidableAreFormulas arguments
    inferInstanceAs (Decidable (_ ∧ _))
  | .binary _ _ left right =>
    have := left.decidableIsFormula
    have := right.decidableIsFormula
    inferInstanceAs (Decidable (_ ∧ _ ∧ _))
  | .unary .. | .block .. | .conditional .. | .declaration .. | .giveBack .. | .program .. =>
    inferInstanceAs (Decidable False)

def Node.decidableAreFormulas : (nodes : List Node) → Decidable (Node.AreFormulas nodes)
  | [] => inferInstanceAs (Decidable True)
  | node :: nodes =>
    have := node.decidableIsFormula
    have := Node.decidableAreFormulas nodes
    inferInstanceAs (Decidable (_ ∧ _))

end

instance (node : Node) : Decidable node.IsFormula :=
  node.decidableIsFormula

mutual

def Node.decidableIsStatement : (node : Node) → Decidable node.IsStatement
  | .declaration _ _ _ body =>
    have := Block.decidableIsBody body
    inferInstanceAs (Decidable (_ ∧ _ ∧ _ ∧ _))
  | .giveBack _ value => inferInstanceAs (Decidable value.IsFormula)
  | .conditional _ _ body alternative =>
    have := Block.decidableIsBody body
    have := Node.decidableIsAlternative alternative
    inferInstanceAs (Decidable (_ ∧ _ ∧ _))
  | .unary .. => inferInstanceAs (Decidable (_ ∧ _))
  | .binary .. => inferInstanceAs (Decidable (_ ∨ _))
  | .number span value => inferInstanceAs (Decidable (Node.number span value).IsFormula)
  | .string span raw => inferInstanceAs (Decidable (Node.string span raw).IsFormula)
  | .reference span name => inferInstanceAs (Decidable (Node.reference span name).IsFormula)
  | .call span name arguments =>
    inferInstanceAs (Decidable (Node.call span name arguments).IsFormula)
  | .block .. | .program .. => inferInstanceAs (Decidable False)

def Node.decidableAreStatements : (nodes : List Node) → Decidable (Node.AreStatements nodes)
  | [] => inferInstanceAs (Decidable True)
  | node :: nodes =>
    have := node.decidableIsStatement
    have := Node.decidableAreStatements nodes
    inferInstanceAs (Decidable (_ ∧ _))

def Block.decidableIsBody : (body : Option Block) → Decidable (Block.IsBody body)
  | none => inferInstanceAs (Decidable False)
  | some (.mk _ statements) => Node.decidableAreStatements statements

def Node.decidableIsAlternative :
    (alternative : Option Node) → Decidable (Node.IsAlternative alternative)
  | none => inferInstanceAs (Decidable True)
  | some (.conditional _ _ body alternative) =>
    have := Block.decidableIsBody body
    have := Node.decidableIsAlternative alternative
    inferInstanceAs (Decidable (_ ∧ _ ∧ _))
  | some (.block (.mk _ statements)) => Node.decidableAreStatements statements
  | some (.number ..) | some (.string ..) | some (.reference ..) | some (.call ..)
  | some (.unary ..) | some (.binary ..) | some (.declaration ..) | some (.giveBack ..)
  | some (.program ..) => inferInstanceAs (Decidable False)

end

instance (program : Program) : Decidable program.WellFormed :=
  Block.decidableIsBody program.body

end Decidable

section Erasure

mutual

theorem Node.isFormula_erased : ∀ node : Node, node.erased.IsFormula ↔ node.IsFormula
  | .number .. => by simp only [Node.erased, Node.IsFormula]
  | .string .. => by simp only [Node.erased, Node.IsFormula]
  | .reference .. => by simp only [Node.erased, Node.IsFormula]
  | .call _ _ arguments => by
      simp only [Node.erased, Node.IsFormula, Node.areFormulas_erased arguments]
  | .binary _ _ left right => by
      simp only [Node.erased, Node.IsFormula, Node.isFormula_erased left, Node.isFormula_erased right]
  | .unary .. => by simp only [Node.erased, Node.IsFormula]
  | .block .. => by simp only [Node.erased, Node.IsFormula]
  | .conditional .. => by simp only [Node.erased, Node.IsFormula]
  | .declaration .. => by simp only [Node.erased, Node.IsFormula]
  | .giveBack .. => by simp only [Node.erased, Node.IsFormula]
  | .program .. => by simp only [Node.erased, Node.IsFormula]

theorem Node.areFormulas_erased :
    ∀ nodes : List Node, Node.AreFormulas (Node.erasedAll nodes) ↔ Node.AreFormulas nodes
  | [] => Iff.rfl
  | node :: nodes => by
      simp only [Node.erasedAll, Node.AreFormulas, Node.isFormula_erased node,
        Node.areFormulas_erased nodes]

end

mutual

theorem Node.isStatement_erased : ∀ node : Node, node.erased.IsStatement ↔ node.IsStatement
  | .number .. => Iff.rfl
  | .string .. => Iff.rfl
  | .reference .. => Iff.rfl
  | .call span name arguments => Node.isFormula_erased (.call span name arguments)
  | .binary _ _ left right => by
      simp only [Node.erased, Node.IsStatement, Node.IsFormula, Node.isFormula_erased left,
        Node.isFormula_erased right]
  | .unary _ _ operand => by
      simp only [Node.erased, Node.IsStatement, Node.isFormula_erased operand]
  | .block .. => Iff.rfl
  | .conditional _ condition body alternative => by
      simp only [Node.erased, Node.IsStatement, Node.isFormula_erased condition,
        Block.isBody_erased body, Node.isAlternative_erased alternative]
  | .declaration _ _ _ body => by
      simp only [Node.erased, Node.IsStatement, Block.isBody_erased body]
  | .giveBack _ value => by
      simp only [Node.erased, Node.IsStatement, Node.isFormula_erased value]
  | .program .. => Iff.rfl

theorem Node.areStatements_erased :
    ∀ nodes : List Node, Node.AreStatements (Node.erasedAll nodes) ↔ Node.AreStatements nodes
  | [] => Iff.rfl
  | node :: nodes => by
      simp only [Node.erasedAll, Node.AreStatements, Node.isStatement_erased node,
        Node.areStatements_erased nodes]

theorem Block.isBody_erased :
    ∀ body : Option Block, Block.IsBody (Block.erasedOption body) ↔ Block.IsBody body
  | none => Iff.rfl
  | some (.mk _ statements) => by
      simp only [Block.erasedOption, Block.erased, Block.IsBody, Node.areStatements_erased statements]

theorem Node.isAlternative_erased :
    ∀ alternative : Option Node,
      Node.IsAlternative (Node.erasedOption alternative) ↔ Node.IsAlternative alternative
  | none => Iff.rfl
  | some (.conditional _ condition body alternative) => by
      simp only [Node.erasedOption, Node.erased, Node.IsAlternative, Node.isFormula_erased condition,
        Block.isBody_erased body, Node.isAlternative_erased alternative]
  | some (.block (.mk _ statements)) => by
      simp only [Node.erasedOption, Node.erased, Block.erased, Node.IsAlternative,
        Node.areStatements_erased statements]
  | some (.number ..) => Iff.rfl
  | some (.string ..) => Iff.rfl
  | some (.reference ..) => Iff.rfl
  | some (.call ..) => Iff.rfl
  | some (.binary ..) => Iff.rfl
  | some (.unary ..) => Iff.rfl
  | some (.declaration ..) => Iff.rfl
  | some (.giveBack ..) => Iff.rfl
  | some (.program ..) => Iff.rfl

end

theorem Program.wellFormed_erased (program : Program) :
    program.erased.WellFormed ↔ program.WellFormed :=
  Block.isBody_erased program.body

end Erasure

namespace Derivation

mutual

theorem Formula.node_isFormula {level : Nat} (tree : Formula level)
    (sound : ∀ terminal ∈ tree.terminals, terminal.Sound) : tree.node.IsFormula :=
  match level, tree with
  | _, .number digits => by
      obtain ⟨isNumeral, inRange⟩ := sound (.number digits) (by simp [Formula.terminals])
      obtain ⟨value, read⟩ := Option.isSome_iff_exists.mp inRange
      simp only [Formula.node, Node.IsFormula, read, Option.getD_some]
      exact Text.nonneg_of_toInt64? isNumeral read
  | _, .string raw => (sound (.string raw) (by simp [Formula.terminals])).1
  | _, .reference name => (sound (.name name) (by simp [Formula.terminals])).1
  | _, .call name arguments => by
      simp only [Formula.terminals, List.forall_mem_cons] at sound
      exact ⟨sound.1.1, arguments.nodes_areFormulas sound.2.2⟩
  | _, .group inner => by
      simp only [Formula.terminals, List.forall_mem_cons, List.forall_mem_append] at sound
      exact inner.node_isFormula sound.2.1
  | _, .chain first links => by
      simp only [Formula.terminals, List.forall_mem_append] at sound
      exact links.node_isFormula sound.2 (first.node_isFormula sound.1)
termination_by structural tree

theorem Links.node_isFormula {level : Nat} (links : Links level) {left : Node}
    (sound : ∀ terminal ∈ links.terminals, terminal.Sound) (leftFormula : left.IsFormula) :
    (links.node left).IsFormula :=
  match level, links with
  | _, .done => leftFormula
  | _, .link operator binds right links => by
      simp only [Links.terminals, List.forall_mem_cons, List.forall_mem_append] at sound
      have rightFormula := right.node_isFormula sound.2.1
      exact links.node_isFormula sound.2.2
        ⟨mem_binaryOperators binds, leftFormula, rightFormula⟩
termination_by structural links

theorem Arguments.nodes_areFormulas (arguments : Arguments)
    (sound : ∀ terminal ∈ arguments.terminals, terminal.Sound) :
    Node.AreFormulas arguments.nodes :=
  match arguments with
  | .none => trivial
  | .some values => values.nodes_areFormulas sound
termination_by structural arguments

theorem Values.nodes_areFormulas (values : Values)
    (sound : ∀ terminal ∈ values.terminals, terminal.Sound) : Node.AreFormulas values.nodes :=
  match values with
  | .last value => by
      simp only [Values.terminals, List.forall_mem_append] at sound
      exact ⟨value.node_isFormula sound.1, trivial⟩
  | .more value values => by
      simp only [Values.terminals, List.forall_mem_cons, List.forall_mem_append] at sound
      exact ⟨value.node_isFormula sound.1, values.nodes_areFormulas sound.2.2⟩
termination_by structural values

end

/-- Every formula may stand as a statement. -/
theorem isStatement_of_isFormula {node : Node} (isFormula : node.IsFormula) : node.IsStatement := by
  cases node with
  | binary => exact .inr isFormula
  | number | string | reference | call => exact isFormula
  | unary | block | conditional | declaration | giveBack | program => exact isFormula.elim

theorem separated_names {names : List Text}
    (sound : ∀ terminal ∈ separated names, terminal.Sound) : ∀ name ∈ names, Text.IsName name := by
  fun_induction separated names with
  | case1 => simp
  | case2 name =>
      simp only [List.forall_mem_singleton] at sound ⊢
      exact sound.1
  | case3 name next names inductionHypothesis =>
      rw [List.forall_mem_cons, List.forall_mem_cons] at sound
      exact List.forall_mem_cons.mpr ⟨sound.1.1, inductionHypothesis sound.2.2⟩

mutual

theorem Statement.node_isStatement (tree : Statement) (distinct : tree.Distinct)
    (sound : ∀ terminal ∈ tree.terminals, terminal.Sound) : tree.node.IsStatement :=
  match tree with
  | .declaration name parameters body terminated => by
      simp only [Statement.terminals, enclosed, List.forall_mem_cons, List.forall_mem_append] at sound
      obtain ⟨_, isName, _, parametersSound, _, ⟨_, bodySound, _⟩, _⟩ := sound
      exact ⟨isName.1, separated_names parametersSound, distinct.1,
        body.nodes_areStatements distinct.2 bodySound⟩
  | .giveBack value terminated => by
      simp only [Statement.terminals, List.forall_mem_cons, List.forall_mem_append] at sound
      exact value.node_isFormula sound.2.1
  | .conditional conditional terminated => by
      simp only [Statement.terminals, List.forall_mem_append] at sound
      exact conditional.node_isStatement distinct sound.1
  | .print operand => by
      simp only [Statement.terminals, List.forall_mem_cons, List.forall_mem_append] at sound
      exact ⟨rfl, operand.node_isFormula sound.2.1⟩
  | .formula value => by
      simp only [Statement.terminals, List.forall_mem_append] at sound
      exact isStatement_of_isFormula (value.node_isFormula sound.1)
  | .assignment left right => by
      simp only [Statement.terminals, List.forall_mem_cons, List.forall_mem_append] at sound
      exact .inl ⟨rfl, left.node_isFormula sound.1, right.node_isFormula sound.2.2.1⟩
termination_by structural tree

theorem Conditional.node_isStatement (tree : Conditional) (distinct : tree.Distinct)
    (sound : ∀ terminal ∈ tree.terminals, terminal.Sound) : tree.node.IsStatement :=
  match tree with
  | .mk condition body alternative => by
      simp only [Conditional.terminals, enclosed, List.forall_mem_cons, List.forall_mem_append] at sound
      obtain ⟨_, conditionSound, ⟨_, bodySound, _⟩, alternativeSound⟩ := sound
      exact ⟨condition.node_isFormula conditionSound,
        body.nodes_areStatements distinct.1 bodySound,
        alternative.node_isAlternative distinct.2 alternativeSound⟩
termination_by structural tree

theorem Alternative.node_isAlternative (tree : Alternative) (distinct : tree.Distinct)
    (sound : ∀ terminal ∈ tree.terminals, terminal.Sound) : Node.IsAlternative tree.node :=
  match tree with
  | .none => trivial
  | .conditional conditional => by
      simp only [Alternative.terminals, List.forall_mem_cons] at sound
      have isStatement := conditional.node_isStatement distinct sound.2
      cases conditional
      exact isStatement
  | .body body => by
      simp only [Alternative.terminals, enclosed, List.forall_mem_cons, List.forall_mem_append] at sound
      exact body.nodes_areStatements distinct sound.2.2.1
termination_by structural tree

theorem Statements.nodes_areStatements (tree : Statements) (distinct : tree.Distinct)
    (sound : ∀ terminal ∈ tree.terminals, terminal.Sound) : Node.AreStatements tree.nodes :=
  match tree with
  | .nil => trivial
  | .cons first others => by
      simp only [Statements.terminals, List.forall_mem_append] at sound
      exact ⟨first.node_isStatement distinct.1 sound.1,
        others.nodes_areStatements distinct.2 sound.2⟩
termination_by structural tree

end

end Derivation

/-- What is read off a source text is well-formed. -/
theorem wellFormed_of_parse {file source : Text} {program : Program}
    (accepted : parse file source = .ok program) : program.WellFormed := by
  obtain ⟨derivation, spelled, valid, denoted⟩ := derivation_of_parse accepted
  rw [← Program.wellFormed_erased, denoted]
  exact derivation.nodes_areStatements valid.distinct fun terminal member =>
    ⟨spelled.spellable terminal member, valid.inRange terminal member⟩

end Parlance
