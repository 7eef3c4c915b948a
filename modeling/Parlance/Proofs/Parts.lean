import Parlance.Proofs.WellFormed

namespace Parlance

open Parlance.Derivation

/-!
The parts of a tree: the nodes it is made of, each in front of the nodes inside
it, and otherwise in the order of the source text.
-/

mutual

def Node.parts : Node → List Node
  | .number span value => [.number span value]
  | .string span raw => [.string span raw]
  | .reference span name => [.reference span name]
  | .call span name arguments => .call span name arguments :: Node.partsOfAll arguments
  | .unary span operator operand => .unary span operator operand :: operand.parts
  | .binary span operator left right =>
    .binary span operator left right :: (left.parts ++ right.parts)
  | .block body => .block body :: body.parts
  | .conditional span condition body alternative =>
    .conditional span condition body alternative ::
      (condition.parts ++ (Block.partsOfOption body ++ Node.partsOfOption alternative))
  | .declaration span name parameters body =>
    .declaration span name parameters body :: Block.partsOfOption body
  | .giveBack span value => .giveBack span value :: value.parts
  | .program span body => .program span body :: Block.partsOfOption body

def Node.partsOfAll : List Node → List Node
  | [] => []
  | node :: nodes => node.parts ++ Node.partsOfAll nodes

def Node.partsOfOption : Option Node → List Node
  | none => []
  | some node => node.parts

def Block.parts : Block → List Node
  | .mk _ statements => Node.partsOfAll statements

def Block.partsOfOption : Option Block → List Node
  | none => []
  | some body => body.parts

end

def Program.parts (program : Program) : List Node :=
  Node.partsOfAll program.statements

theorem Node.mem_parts (node : Node) : node ∈ node.parts := by
  cases node <;> simp [Node.parts]

theorem Node.parts_subset_partsOfAll {node : Node} {nodes : List Node} (member : node ∈ nodes) :
    node.parts ⊆ Node.partsOfAll nodes := by
  induction nodes with
  | nil => contradiction
  | cons first others inductionHypothesis =>
      rw [Node.partsOfAll]
      rcases List.mem_cons.mp member with rfl | member
      · exact List.subset_append_left ..
      · exact List.subset_append_of_subset_right _ (inductionHypothesis member)

theorem Node.subset_partsOfAll (nodes : List Node) : nodes ⊆ Node.partsOfAll nodes :=
  fun node member => Node.parts_subset_partsOfAll member node.mem_parts

/-- Nodes of which each comes with all of its own parts. -/
def Closed (nodes : List Node) : Prop :=
  ∀ part ∈ nodes, part.parts ⊆ nodes

namespace Closed

variable {first second : List Node}

theorem nil : Closed [] := List.forall_mem_nil _

theorem append (closed : Closed first) (closed' : Closed second) : Closed (first ++ second) := by
  intro part member
  rcases List.mem_append.mp member with inside | inside
  · exact List.subset_append_of_subset_left _ (closed part inside)
  · exact List.subset_append_of_subset_right _ (closed' part inside)

theorem cons {node : Node} (whole : node.parts = node :: first) (closed : Closed first) :
    Closed node.parts := by
  intro part member
  rw [whole] at member
  rcases List.mem_cons.mp member with rfl | inside
  · exact List.Subset.refl _
  · rw [whole]
    exact List.subset_cons_of_subset _ (closed part inside)

end Closed

mutual

theorem Node.closed_parts : ∀ node : Node, Closed node.parts
  | .number .. => .cons (by rw [Node.parts]) .nil
  | .string .. => .cons (by rw [Node.parts]) .nil
  | .reference .. => .cons (by rw [Node.parts]) .nil
  | .call _ _ arguments => .cons (by rw [Node.parts]) (Node.closed_partsOfAll arguments)
  | .unary _ _ operand => .cons (by rw [Node.parts]) operand.closed_parts
  | .binary _ _ left right => .cons (by rw [Node.parts]) (left.closed_parts.append right.closed_parts)
  | .block body => .cons (by rw [Node.parts]) body.closed_parts
  | .conditional _ condition body alternative =>
      .cons (by rw [Node.parts]) (condition.closed_parts.append
        ((Block.closed_partsOfOption body).append (Node.closed_partsOfOption alternative)))
  | .declaration _ _ _ body => .cons (by rw [Node.parts]) (Block.closed_partsOfOption body)
  | .giveBack _ value => .cons (by rw [Node.parts]) value.closed_parts
  | .program _ body => .cons (by rw [Node.parts]) (Block.closed_partsOfOption body)

theorem Node.closed_partsOfAll : ∀ nodes : List Node, Closed (Node.partsOfAll nodes)
  | [] => .nil
  | node :: nodes => node.closed_parts.append (Node.closed_partsOfAll nodes)

theorem Node.closed_partsOfOption : ∀ node : Option Node, Closed (Node.partsOfOption node)
  | none => .nil
  | some node => node.closed_parts

theorem Block.closed_parts : ∀ body : Block, Closed body.parts
  | .mk _ statements => Node.closed_partsOfAll statements

theorem Block.closed_partsOfOption : ∀ body : Option Block, Closed (Block.partsOfOption body)
  | none => .nil
  | some body => body.closed_parts

end

theorem Program.closed_parts (program : Program) : Closed program.parts :=
  Node.closed_partsOfAll program.statements

/-- What may stand somewhere in a well-formed program: a block is no statement,
but it may be the alternative of a conditional. -/
def Node.IsPart (node : Node) : Prop :=
  node.IsStatement ∨ ∃ body, node = .block body ∧ Block.IsBody (some body)

mutual

theorem Node.isFormula_of_mem_parts : ∀ node : Node, node.IsFormula →
    ∀ part ∈ node.parts, part.IsFormula
  | .number .., isFormula => List.forall_mem_singleton.mpr isFormula
  | .string .., isFormula => List.forall_mem_singleton.mpr isFormula
  | .reference .., isFormula => List.forall_mem_singleton.mpr isFormula
  | .call _ _ arguments, isFormula =>
      List.forall_mem_cons.mpr ⟨isFormula, Node.isFormula_of_mem_partsOfAll arguments isFormula.2⟩
  | .binary _ _ left right, isFormula =>
      List.forall_mem_cons.mpr ⟨isFormula, List.forall_mem_append.mpr
        ⟨left.isFormula_of_mem_parts isFormula.2.1, right.isFormula_of_mem_parts isFormula.2.2⟩⟩

theorem Node.isFormula_of_mem_partsOfAll : ∀ nodes : List Node, Node.AreFormulas nodes →
    ∀ part ∈ Node.partsOfAll nodes, part.IsFormula
  | [], _ => List.forall_mem_nil _
  | node :: nodes, ⟨isFormula, areFormulas⟩ => List.forall_mem_append.mpr
      ⟨node.isFormula_of_mem_parts isFormula, Node.isFormula_of_mem_partsOfAll nodes areFormulas⟩

end

theorem Node.isPart_of_formula {node : Node} (isFormula : node.IsFormula) :
    ∀ part ∈ node.parts, part.IsPart :=
  fun part member => .inl (isStatement_of_isFormula (node.isFormula_of_mem_parts isFormula part member))

mutual

theorem Node.isPart_of_mem_parts : ∀ node : Node, node.IsStatement →
    ∀ part ∈ node.parts, part.IsPart
  | .declaration _ _ _ body, isStatement =>
      have ⟨_, _, _, isBody⟩ := isStatement
      List.forall_mem_cons.mpr ⟨.inl isStatement, Block.isPart_of_mem_parts body isBody⟩
  | .giveBack _ _, isFormula =>
      List.forall_mem_cons.mpr ⟨.inl isFormula, Node.isPart_of_formula isFormula⟩
  | .conditional _ _ body alternative, isStatement =>
      have ⟨isFormula, isBody, isAlternative⟩ := isStatement
      List.forall_mem_cons.mpr ⟨.inl isStatement, List.forall_mem_append.mpr
        ⟨Node.isPart_of_formula isFormula, List.forall_mem_append.mpr
          ⟨Block.isPart_of_mem_parts body isBody,
            Node.isPart_of_mem_alternative alternative isAlternative⟩⟩⟩
  | .unary _ _ _, isStatement =>
      List.forall_mem_cons.mpr ⟨.inl isStatement, Node.isPart_of_formula isStatement.2⟩
  | .binary _ _ _ _, .inl ⟨assigns, leftFormula, rightFormula⟩ =>
      List.forall_mem_cons.mpr ⟨.inl (.inl ⟨assigns, leftFormula, rightFormula⟩),
        List.forall_mem_append.mpr
          ⟨Node.isPart_of_formula leftFormula, Node.isPart_of_formula rightFormula⟩⟩
  | .binary _ _ _ _, .inr isFormula => Node.isPart_of_formula isFormula
  | .number _ _, isFormula => Node.isPart_of_formula isFormula
  | .string _ _, isFormula => Node.isPart_of_formula isFormula
  | .reference _ _, isFormula => Node.isPart_of_formula isFormula
  | .call _ _ _, isFormula => Node.isPart_of_formula isFormula

theorem Node.isPart_of_mem_alternative : ∀ node : Option Node, Node.IsAlternative node →
    ∀ part ∈ Node.partsOfOption node, part.IsPart
  | none, _ => List.forall_mem_nil _
  | some (.conditional span condition body alternative), isAlternative =>
      Node.isPart_of_mem_parts (.conditional span condition body alternative) isAlternative
  | some (.block (.mk _ statements)), areStatements =>
      List.forall_mem_cons.mpr
        ⟨.inr ⟨_, rfl, areStatements⟩, Node.isPart_of_mem_partsOfAll statements areStatements⟩

theorem Node.isPart_of_mem_partsOfAll : ∀ nodes : List Node, Node.AreStatements nodes →
    ∀ part ∈ Node.partsOfAll nodes, part.IsPart
  | [], _ => List.forall_mem_nil _
  | node :: nodes, ⟨isStatement, areStatements⟩ => List.forall_mem_append.mpr
      ⟨node.isPart_of_mem_parts isStatement, Node.isPart_of_mem_partsOfAll nodes areStatements⟩

theorem Block.isPart_of_mem_parts : ∀ body : Option Block, Block.IsBody body →
    ∀ part ∈ Block.partsOfOption body, part.IsPart
  | some (.mk _ statements), areStatements => Node.isPart_of_mem_partsOfAll statements areStatements

end

/-- Evaluated for its value, and no assignment. -/
def Node.isExpression : Node → Bool
  | .number .. | .string .. | .reference .. | .call .. => true
  | .binary _ operator _ _ => operator ≠ .assign
  | _ => false

theorem Node.IsPart.isFormula {node : Node} (isPart : node.IsPart)
    (isExpression : node.isExpression = true) : node.IsFormula := by
  rcases isPart with isStatement | ⟨body, rfl, _⟩
  · cases node with
    | number | string | reference | call => exact isStatement
    | binary span operator left right =>
        rcases isStatement with ⟨assigns, _⟩ | isFormula
        · exact absurd assigns (of_decide_eq_true isExpression)
        · exact isFormula
    | _ => contradiction
  · contradiction

theorem Node.IsPart.isStatement {node : Node} (isPart : node.IsPart)
    (noBlock : ∀ body, node ≠ .block body) : node.IsStatement := by
  obtain isStatement | ⟨body, same, _⟩ := isPart
  · exact isStatement
  · exact absurd same (noBlock body)

theorem Program.isPart_of_mem_parts {program : Program} (wellFormed : program.WellFormed) :
    ∀ part ∈ program.parts, part.IsPart := by
  obtain ⟨span, body⟩ := program
  cases body with
  | none => exact wellFormed.elim
  | some block =>
      obtain ⟨_, statements⟩ := block
      exact Node.isPart_of_mem_partsOfAll statements wellFormed

end Parlance
