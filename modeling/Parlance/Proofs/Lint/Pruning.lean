import Parlance.Proofs.Erasure
import Parlance.Proofs.Lint.Scopes

namespace Parlance

/-!
Statements behind a return. A tree is pruned by removing them from every block,
also from the bodies of functions. What is removed is what the lint check
reports: a warning is about the first statement removed from a block.
-/

namespace Node

/-- The statements of a block up to the first return. -/
def upToReturn : List Node → List Node
  | [] => []
  | node :: nodes => node :: if Lint.isReturn node then [] else upToReturn nodes

theorem upToReturn_upToReturn (nodes : List Node) :
    upToReturn (upToReturn nodes) = upToReturn nodes := by
  induction nodes with
  | nil => rfl
  | cons node nodes inductionHypothesis =>
      simp only [upToReturn]
      split <;> simp only [inductionHypothesis]

end Node

mutual

/-- The node without the statements that stand behind a return in their block. -/
def Node.pruned : Node → Node
  | .block body => .block body.pruned
  | .conditional span condition body alternative =>
    .conditional span condition (Block.prunedOption body) (Node.prunedOption alternative)
  | .declaration span name parameters body =>
    .declaration span name parameters (Block.prunedOption body)
  | node => node

def Node.prunedAll : List Node → List Node
  | [] => []
  | node :: nodes => node.pruned :: Node.prunedAll nodes

def Node.prunedOption : Option Node → Option Node
  | none => none
  | some node => some node.pruned

def Block.pruned : Block → Block
  | .mk span statements => .mk span (Node.upToReturn (Node.prunedAll statements))

def Block.prunedOption : Option Block → Option Block
  | none => none
  | some body => some body.pruned

end

def Program.pruned (program : Program) : Program :=
  ⟨program.span, Block.prunedOption program.body⟩

def Function.pruned (function : Function) : Function :=
  { function with body := Block.prunedOption function.body }

def Environment.pruned (environment : Environment) : Environment :=
  environment.mapFunctions Function.pruned

theorem Node.span_pruned (node : Node) : node.pruned.span = node.span := by
  cases node with
  | block body => cases body; rfl
  | _ => rfl

theorem Node.isReturn_pruned (node : Node) : Lint.isReturn node.pruned = Lint.isReturn node := by
  cases node <;> rfl

theorem Node.prunedAll_upToReturn (nodes : List Node) :
    Node.prunedAll (Node.upToReturn nodes) = Node.upToReturn (Node.prunedAll nodes) := by
  induction nodes with
  | nil => rfl
  | cons node nodes inductionHypothesis =>
      simp only [Node.upToReturn, Node.prunedAll, Node.isReturn_pruned]
      split
      · rfl
      · rw [inductionHypothesis]

mutual

theorem Node.pruned_pruned : ∀ node : Node, node.pruned.pruned = node.pruned
  | .block body => by simp only [Node.pruned, body.pruned_pruned]
  | .conditional _ _ body alternative => by
      simp only [Node.pruned, Block.prunedOption_prunedOption body,
        Node.prunedOption_prunedOption alternative]
  | .declaration _ _ _ body => by simp only [Node.pruned, Block.prunedOption_prunedOption body]
  | .number .. | .string .. | .reference .. | .call .. | .unary .. | .binary .. | .giveBack ..
  | .program .. => rfl

theorem Node.prunedAll_prunedAll : ∀ nodes : List Node,
    Node.prunedAll (Node.prunedAll nodes) = Node.prunedAll nodes
  | [] => rfl
  | node :: nodes => by
      simp only [Node.prunedAll, node.pruned_pruned, Node.prunedAll_prunedAll nodes]

theorem Node.prunedOption_prunedOption : ∀ node : Option Node,
    Node.prunedOption (Node.prunedOption node) = Node.prunedOption node
  | none => rfl
  | some node => by simp only [Node.prunedOption, node.pruned_pruned]

theorem Block.pruned_pruned : ∀ body : Block, body.pruned.pruned = body.pruned
  | .mk _ statements => by
      simp only [Block.pruned, Node.prunedAll_upToReturn, Node.prunedAll_prunedAll statements,
        Node.upToReturn_upToReturn]

theorem Block.prunedOption_prunedOption : ∀ body : Option Block,
    Block.prunedOption (Block.prunedOption body) = Block.prunedOption body
  | none => rfl
  | some body => by simp only [Block.prunedOption, body.pruned_pruned]

end

/-- A pruned program has nothing to prune. -/
theorem Program.pruned_pruned (program : Program) : program.pruned.pruned = program.pruned := by
  simp only [Program.pruned, Block.prunedOption_prunedOption]

mutual

/-- The statements that pruning removes, with those of each block in a list of
their own. Nothing is said of what stands inside them. -/
def Node.cuts : Node → List (List Node)
  | .block body => body.cuts
  | .conditional _ _ body alternative => Block.cutsOfOption body ++ Node.cutsOfAlternative alternative
  | .declaration _ _ _ body => Block.cutsOfOption body
  | _ => []

def Node.cutsOfAll : List Node → List (List Node)
  | [] => []
  | node :: nodes => node.cuts ++ if Lint.isReturn node then [nodes] else Node.cutsOfAll nodes

def Block.cuts : Block → List (List Node)
  | .mk _ statements => Node.cutsOfAll statements

def Block.cutsOfOption : Option Block → List (List Node)
  | none => []
  | some body => body.cuts

/-- An alternative is another conditional or a block. -/
def Node.cutsOfAlternative : Option Node → List (List Node)
  | some (.conditional _ _ body alternative) =>
    Block.cutsOfOption body ++ Node.cutsOfAlternative alternative
  | some (.block body) => body.cuts
  | _ => []

end

def Program.cuts (program : Program) : List (List Node) :=
  Node.cutsOfAll program.statements

theorem Program.statements_pruned (program : Program) :
    program.pruned.statements = Node.upToReturn (Node.prunedAll program.statements) := by
  obtain ⟨_, body⟩ := program
  cases body with
  | none => rfl
  | some body => cases body; rfl

mutual

theorem Node.cuts_pruned : ∀ node : Node, ∀ cut ∈ node.pruned.cuts, cut = []
  | .block body => body.cuts_pruned
  | .conditional _ _ body alternative =>
      List.forall_mem_append.mpr
        ⟨Block.cutsOfOption_pruned body, Node.cutsOfAlternative_pruned alternative⟩
  | .declaration _ _ _ body => Block.cutsOfOption_pruned body
  | .number .. | .string .. | .reference .. | .call .. | .unary .. | .binary .. | .giveBack ..
  | .program .. => List.forall_mem_nil _

theorem Node.cutsOfAll_pruned : ∀ nodes : List Node,
    ∀ cut ∈ Node.cutsOfAll (Node.upToReturn (Node.prunedAll nodes)), cut = []
  | [] => List.forall_mem_nil _
  | node :: nodes => by
      simp only [Node.prunedAll, Node.upToReturn, Node.cutsOfAll]
      refine List.forall_mem_append.mpr ⟨node.cuts_pruned, ?_⟩
      split
      · exact List.forall_mem_singleton.mpr rfl
      · exact Node.cutsOfAll_pruned nodes

theorem Block.cuts_pruned : ∀ body : Block, ∀ cut ∈ body.pruned.cuts, cut = []
  | .mk _ statements => Node.cutsOfAll_pruned statements

theorem Block.cutsOfOption_pruned : ∀ body : Option Block,
    ∀ cut ∈ Block.cutsOfOption (Block.prunedOption body), cut = []
  | none => List.forall_mem_nil _
  | some body => body.cuts_pruned

theorem Node.cutsOfAlternative_pruned : ∀ node : Option Node,
    ∀ cut ∈ Node.cutsOfAlternative (Node.prunedOption node), cut = []
  | some (.conditional _ _ body alternative) =>
      List.forall_mem_append.mpr
        ⟨Block.cutsOfOption_pruned body, Node.cutsOfAlternative_pruned alternative⟩
  | some (.block body) => body.cuts_pruned
  | none => List.forall_mem_nil _
  | some (.number ..) | some (.string ..) | some (.reference ..) | some (.call ..)
  | some (.unary ..) | some (.binary ..) | some (.declaration ..) | some (.giveBack ..)
  | some (.program ..) => List.forall_mem_nil _

end

namespace Lint

/-- The diagnostics that have a code. -/
def withCode (code : Code) (diagnostics : List Diagnostic) : List Diagnostic :=
  diagnostics.filter (·.code = code.text)

@[simp]
theorem withCode_append (code : Code) (first second : List Diagnostic) :
    withCode code (first ++ second) = withCode code first ++ withCode code second :=
  List.filter_append ..

/-- Calls are reported with codes of their own. -/
theorem withCode_call {code : Code} (notArity : Code.callArity.text ≠ code.text)
    (notUnknown : Code.unknownFunction.text ≠ code.text) (context : Context) (span : Span)
    (name : Text) (given : Nat) : withCode code (call context span name given) = [] := by
  unfold call
  split
  · split
    · split <;> simp [withCode, arityWarning, warning, notArity]
    · simp [withCode, warning, notUnknown]
  · split <;> simp [withCode, arityWarning, warning, notArity]

section Unreachable

variable (context : Context)

mutual

theorem unreachable_expression (visible : List Text) : ∀ node : Node,
    withCode .unreachable (expression context visible node) = []
  | .reference _ name => by
      rw [expression]
      split <;> rfl
  | .binary _ operator left right => by
      rw [expression, withCode_append, unreachable_expression visible right, List.append_nil]
      split
      · rfl
      · exact unreachable_expression visible left
  | .call span name arguments => by
      rw [expression, withCode_append, unreachable_expressions visible arguments,
        withCode_call (by decide) (by decide), List.append_nil]
  | .unary _ _ operand => unreachable_expression visible operand
  | .number .. | .string .. | .block .. | .conditional .. | .declaration .. | .giveBack ..
  | .program .. => rfl

theorem unreachable_expressions (visible : List Text) : ∀ nodes : List Node,
    withCode .unreachable (expressions context visible nodes) = []
  | [] => rfl
  | node :: nodes => by
      rw [expressions, withCode_append, unreachable_expression visible node,
        unreachable_expressions visible nodes, List.append_nil]

end

/-- The warnings about what is removed, one for each block that is cut. -/
def unreachableIn (cuts : List (List Node)) : List Diagnostic :=
  (cuts.filterMap List.head?).map unreachable

theorem unreachableIn_append (first second : List (List Node)) :
    unreachableIn (first ++ second) = unreachableIn first ++ unreachableIn second := by
  simp only [unreachableIn, List.filterMap_append, List.map_append]

theorem statements_behindReturn (visible : List Text) (nodes : List Node) :
    statements context visible true nodes = unreachableIn [nodes] := by
  cases nodes <;> rfl

mutual

theorem unreachable_statement (visible : List Text) : ∀ node : Node,
    withCode .unreachable (statement context visible node) = unreachableIn node.cuts
  | .declaration _ _ parameters body => unreachable_optionalBlock _ body
  | .conditional _ condition body alternative => by
      rw [statement, withCode_append, withCode_append, unreachable_expression,
        unreachable_optionalBlock visible body, unreachable_otherwise visible alternative,
        Node.cuts, unreachableIn_append, List.nil_append]
  | .block body => unreachable_block visible body
  | .giveBack _ value => unreachable_expression context visible value
  | .unary _ _ operand => unreachable_expression context visible operand
  | .number span value => unreachable_expression context visible (.number span value)
  | .string span raw => unreachable_expression context visible (.string span raw)
  | .reference span name => unreachable_expression context visible (.reference span name)
  | .binary span operator left right =>
      unreachable_expression context visible (.binary span operator left right)
  | .call span name arguments =>
      unreachable_expression context visible (.call span name arguments)
  | .program span body => unreachable_expression context visible (.program span body)

theorem unreachable_statements (visible : List Text) : ∀ nodes : List Node,
    withCode .unreachable (statements context visible false nodes) =
      unreachableIn (Node.cutsOfAll nodes)
  | [] => rfl
  | node :: nodes => by
      rw [statements, if_neg Bool.false_ne_true, withCode_append,
        unreachable_statement visible node, Node.cutsOfAll, unreachableIn_append]
      cases isReturn node with
      | true =>
          rw [if_pos rfl, statements_behindReturn]
          cases nodes <;> rfl
      | false => rw [unreachable_statements visible nodes, if_neg Bool.false_ne_true]

theorem unreachable_block (visible : List Text) : ∀ body : Block,
    withCode .unreachable (block context visible body) = unreachableIn body.cuts
  | .mk _ nodes => unreachable_statements visible nodes

theorem unreachable_optionalBlock (visible : List Text) : ∀ body : Option Block,
    withCode .unreachable (optionalBlock context visible body) =
      unreachableIn (Block.cutsOfOption body)
  | none => rfl
  | some body => unreachable_block visible body

theorem unreachable_otherwise (visible : List Text) : ∀ node : Option Node,
    withCode .unreachable (otherwise context visible node) =
      unreachableIn (Node.cutsOfAlternative node)
  | some (.conditional _ condition body alternative) => by
      rw [otherwise, withCode_append, withCode_append, unreachable_expression,
        unreachable_optionalBlock visible body, unreachable_otherwise visible alternative,
        Node.cutsOfAlternative, unreachableIn_append, List.nil_append]
  | some (.block body) => unreachable_block visible body
  | none => rfl
  | some (.number ..) | some (.string ..) | some (.reference ..) | some (.call ..)
  | some (.unary ..) | some (.binary ..) | some (.declaration ..) | some (.giveBack ..)
  | some (.program ..) => rfl

end

end Unreachable

end Lint

/-- What is reported as unreachable is the first statement removed from each block. -/
theorem Program.unreachable_lint (program : Program) (known : Known) :
    Lint.withCode .unreachable (program.lint known) = Lint.unreachableIn program.cuts := by
  rw [lint_eq]
  exact Lint.unreachable_statements _ _ program.statements

theorem Program.unreachable_lint_pruned (program : Program) (known : Known) :
    Lint.withCode .unreachable (program.pruned.lint known) = [] := by
  have nothing : program.pruned.cuts.filterMap List.head? = [] := by
    refine List.filterMap_eq_nil_iff.mpr fun cut member => ?_
    rw [Program.cuts, program.statements_pruned] at member
    rw [Node.cutsOfAll_pruned program.statements cut member, List.head?_nil]
  rw [program.pruned.unreachable_lint known, Lint.unreachableIn, nothing, List.map_nil]

end Parlance
