import Parlance.Proofs.Erasure
import Parlance.Proofs.Terminal

namespace Parlance

/-!
The grammar as derivation trees. A tree of this module says which rules were
applied to a list of tokens; `terminals` gives back the list, and `node` gives
the syntax tree that the derivation denotes. A derivation is greedy when it
takes every optional part that the next token allows, so that the only thing
to be known about the tokens behind it is the first of them.
-/

/-- The terminal of a binary operator. -/
def Operator.sign : Operator → Terminal
  | .add => .mark .plus
  | .subtract => .mark .minus
  | .multiply => .mark .star
  | .divide => .mark .slash
  | .equal => .keyword .equal
  | .less => .keyword .less
  | .greater => .keyword .greater
  | .atMost => .keyword .atMost
  | .atLeast => .keyword .atLeast
  | .assign => .mark .assign
  | .print => .keyword .print
  | .unknown _ => .endOfFile

namespace Derivation

/-- The operators that join operands of a level: those of products, sums and
comparisons. -/
def operators : Nat → List Operator
  | 0 => [.multiply, .divide]
  | 1 => [.add, .subtract]
  | 2 => [.equal, .less, .greater, .atMost, .atLeast]
  | _ => []

def binaryOperators : List Operator :=
  operators 0 ++ operators 1 ++ operators 2

theorem mem_binaryOperators {level : Nat} {operator : Operator}
    (binds : operator ∈ operators level) : operator ∈ binaryOperators := by
  match level with
  | 0 => exact List.mem_append_left _ (List.mem_append_left _ binds)
  | 1 => exact List.mem_append_left _ (List.mem_append_right _ binds)
  | 2 => exact List.mem_append_right _ binds
  | _ + 3 => contradiction

theorem sign_ne_endOfFile {level : Nat} {operator : Operator} (binds : operator ∈ operators level) :
    operator.sign ≠ .endOfFile := by
  have separate : ∀ operator ∈ binaryOperators, operator.sign ≠ .endOfFile := by decide
  exact separate operator (mem_binaryOperators binds)

theorem sign_injective {operator other : Operator} (binary : operator ∈ binaryOperators)
    (binary' : other ∈ binaryOperators) (same : operator.sign = other.sign) : operator = other := by
  have injective : ∀ operator ∈ binaryOperators, ∀ other ∈ binaryOperators,
      operator.sign = other.sign → operator = other := by decide
  exact injective operator binary other binary' same

/-- What may stand behind a formula of the level without being part of it. -/
def Follows (level : Nat) (next : Terminal) : Prop :=
  next ≠ .mark .openParen ∧ ∀ lower < level, ∀ operator ∈ operators lower, next ≠ operator.sign

instance (level : Nat) (next : Terminal) : Decidable (Follows level next) :=
  inferInstanceAs (Decidable (_ ∧ _))

theorem Follows.mono {level higher : Nat} {next : Terminal} (follows : Follows higher next)
    (below : level ≤ higher) : Follows level next :=
  ⟨follows.1, fun lower less => follows.2 lower (Nat.lt_of_lt_of_le less below)⟩

/-- The level of comparisons, and so of whole formulas. -/
abbrev comparison : Nat := 3

mutual

/-- Level zero holds the primaries. A formula of a level above it is a chain
of operands of the level below. -/
inductive Formula : Nat → Type where
  | number (digits : Text) : Formula 0
  | string (raw : Text) : Formula 0
  | reference (name : Text) : Formula 0
  | call (name : Text) (arguments : Arguments) : Formula 0
  | group (inner : Formula comparison) : Formula 0
  | chain {level : Nat} (first : Formula level) (links : Links level) : Formula (level + 1)

/-- The operators of a chain, each with its right operand. -/
inductive Links : Nat → Type where
  | done {level : Nat} : Links level
  | link {level : Nat} (operator : Operator) (binds : operator ∈ operators level)
      (right : Formula level) (links : Links level) : Links level

/-- What stands behind the opening parenthesis of a call. -/
inductive Arguments : Type where
  | none
  | some (values : Values)

/-- Formulas with commas between them, up to the closing parenthesis. -/
inductive Values : Type where
  | last (value : Formula comparison)
  | more (value : Formula comparison) (values : Values)

end

mutual

/-- `terminated` tells whether the optional terminator was taken. -/
inductive Statement where
  | declaration (name : Text) (parameters : List Text) (body : Statements) (terminated : Bool)
  | giveBack (value : Formula comparison) (terminated : Bool)
  | conditional (conditional : Conditional) (terminated : Bool)
  | print (operand : Formula comparison)
  | formula (value : Formula comparison)
  | assignment (left right : Formula comparison)

inductive Conditional where
  | mk (condition : Formula comparison) (body : Statements) (alternative : Alternative)

inductive Alternative where
  | none
  | conditional (conditional : Conditional)
  | body (body : Statements)

inductive Statements where
  | nil
  | cons (first : Statement) (others : Statements)

end

mutual

def Formula.terminals : {level : Nat} → Formula level → List Terminal
  | _, .number digits => [.number digits]
  | _, .string raw => [.string raw]
  | _, .reference name => [.name name]
  | _, .call name arguments => .name name :: .mark .openParen :: arguments.terminals
  | _, .group inner => .mark .openParen :: (inner.terminals ++ [.mark .closeParen])
  | _, .chain first links => first.terminals ++ links.terminals

def Links.terminals : {level : Nat} → Links level → List Terminal
  | _, .done => []
  | _, .link operator _ right links => operator.sign :: (right.terminals ++ links.terminals)

def Arguments.terminals : Arguments → List Terminal
  | .none => [.mark .closeParen]
  | .some values => values.terminals

def Values.terminals : Values → List Terminal
  | .last value => value.terminals ++ [.mark .closeParen]
  | .more value values => value.terminals ++ .mark .comma :: values.terminals

end

/-- An optional terminator. -/
def terminator : Bool → List Terminal
  | true => [.keyword .terminator]
  | false => []

/-- Names with commas between them. -/
def separated : List Text → List Terminal
  | [] => []
  | [name] => [.name name]
  | name :: next :: names => .name name :: .mark .comma :: separated (next :: names)

/-- Terminals between the words that open and close a block. -/
def enclosed (terminals : List Terminal) : List Terminal :=
  .keyword .openBlock :: (terminals ++ [.keyword .closeBlock])

mutual

def Statement.terminals : Statement → List Terminal
  | .declaration name parameters body terminated =>
    .keyword .function :: .name name :: .mark .openParen ::
      (separated parameters ++ .mark .closeParen :: (enclosed body.terminals ++ terminator terminated))
  | .giveBack value terminated =>
    .keyword .giveBack :: (value.terminals ++ terminator terminated)
  | .conditional conditional terminated => conditional.terminals ++ terminator terminated
  | .print operand => .keyword .print :: (operand.terminals ++ [.keyword .terminator])
  | .formula value => value.terminals ++ [.keyword .terminator]
  | .assignment left right =>
    left.terminals ++ .mark .assign :: (right.terminals ++ [.keyword .terminator])

def Conditional.terminals : Conditional → List Terminal
  | .mk condition body alternative =>
    .keyword .ifWord :: (condition.terminals ++ (enclosed body.terminals ++ alternative.terminals))

def Alternative.terminals : Alternative → List Terminal
  | .none => []
  | .conditional conditional => .keyword .elseWord :: conditional.terminals
  | .body body => .keyword .elseWord :: enclosed body.terminals

def Statements.terminals : Statements → List Terminal
  | .nil => []
  | .cons first others => first.terminals ++ others.terminals

end

mutual

/-- A name is a reference only if no parenthesis opens behind it, and a chain
ends only where no operator of its level follows. -/
def Formula.Greedy : {level : Nat} → Formula level → Terminal → Prop
  | _, .number _, _ => True
  | _, .string _, _ => True
  | _, .reference _, next => next ≠ .mark .openParen
  | _, .call _ arguments, _ => arguments.Greedy
  | _, .group inner, _ => inner.Greedy (.mark .closeParen)
  | _, .chain first links, next => first.Greedy (links.terminals.headD next) ∧ links.Greedy next

def Links.Greedy : {level : Nat} → Links level → Terminal → Prop
  | level, .done, next => ∀ operator ∈ operators level, next ≠ operator.sign
  | _, .link _ _ right links, next =>
    right.Greedy (links.terminals.headD next) ∧ links.Greedy next

def Arguments.Greedy : Arguments → Prop
  | .none => True
  | .some values => values.Greedy

def Values.Greedy : Values → Prop
  | .last value => value.Greedy (.mark .closeParen)
  | .more value values => value.Greedy (.mark .comma) ∧ values.Greedy

end

mutual

/-- A terminator or an alternative is left out only if the next terminal is
not the one it starts with. -/
def Statement.Greedy : Statement → Terminal → Prop
  | .declaration _ _ body terminated, next =>
    body.Greedy (.keyword .closeBlock) ∧ (terminated = false → next ≠ .keyword .terminator)
  | .giveBack value terminated, next =>
    value.Greedy ((terminator terminated).headD next) ∧
      (terminated = false → next ≠ .keyword .terminator)
  | .conditional conditional terminated, next =>
    conditional.Greedy ((terminator terminated).headD next) ∧
      (terminated = false → next ≠ .keyword .terminator)
  | .print operand, _ => operand.Greedy (.keyword .terminator)
  | .formula value, _ => value.Greedy (.keyword .terminator)
  | .assignment left right, _ =>
    left.Greedy (.mark .assign) ∧ right.Greedy (.keyword .terminator)

def Conditional.Greedy : Conditional → Terminal → Prop
  | .mk condition body alternative, next =>
    condition.Greedy (.keyword .openBlock) ∧ body.Greedy (.keyword .closeBlock) ∧
      alternative.Greedy next

def Alternative.Greedy : Alternative → Terminal → Prop
  | .none, next => next ≠ .keyword .elseWord
  | .conditional conditional, next => conditional.Greedy next
  | .body body, _ => body.Greedy (.keyword .closeBlock)

def Statements.Greedy : Statements → Terminal → Prop
  | .nil, _ => True
  | .cons first others, next => first.Greedy (others.terminals.headD next) ∧ others.Greedy next

end

mutual

/-- No declaration, at any depth, repeats a parameter. -/
def Statement.Distinct : Statement → Prop
  | .declaration _ parameters body _ => parameters.Nodup ∧ body.Distinct
  | .conditional conditional _ => conditional.Distinct
  | _ => True

def Conditional.Distinct : Conditional → Prop
  | .mk _ body alternative => body.Distinct ∧ alternative.Distinct

def Alternative.Distinct : Alternative → Prop
  | .none => True
  | .conditional conditional => conditional.Distinct
  | .body body => body.Distinct

def Statements.Distinct : Statements → Prop
  | .nil => True
  | .cons first others => first.Distinct ∧ others.Distinct

end

mutual

/-- The syntax tree without places. Chains group to the left, and parentheses
leave no trace. -/
def Formula.node : {level : Nat} → Formula level → Node
  | _, .number digits => .number .blank ((Text.toInt64? digits).getD 0)
  | _, .string raw => .string .blank raw
  | _, .reference name => .reference .blank name
  | _, .call name arguments => .call .blank name arguments.nodes
  | _, .group inner => inner.node
  | _, .chain first links => links.node first.node

def Links.node : {level : Nat} → Links level → Node → Node
  | _, .done, left => left
  | _, .link operator _ right links, left => links.node (.binary .blank operator left right.node)

def Arguments.nodes : Arguments → List Node
  | .none => []
  | .some values => values.nodes

def Values.nodes : Values → List Node
  | .last value => [value.node]
  | .more value values => value.node :: values.nodes

end

mutual

def Statement.node : Statement → Node
  | .declaration name parameters body _ =>
    .declaration .blank name parameters (some (.mk .blank body.nodes))
  | .giveBack value _ => .giveBack .blank value.node
  | .conditional conditional _ => conditional.node
  | .print operand => .unary .blank .print operand.node
  | .formula value => value.node
  | .assignment left right => .binary .blank .assign left.node right.node

def Conditional.node : Conditional → Node
  | .mk condition body alternative =>
    .conditional .blank condition.node (some (.mk .blank body.nodes)) alternative.node

def Alternative.node : Alternative → Option Node
  | .none => none
  | .conditional conditional => some conditional.node
  | .body body => some (.block (.mk .blank body.nodes))

def Statements.nodes : Statements → List Node
  | .nil => []
  | .cons first others => first.node :: others.nodes

end

/-- A derivation of a program from a token list that ends with its only end
of file. -/
structure Derives (statements : Statements) (tokens : List Token) : Prop where
  yields : tokens.map Token.terminal = statements.terminals ++ [.endOfFile]
  greedy : statements.Greedy .endOfFile

/-- What a derivation has to meet beyond the rules of the grammar. -/
structure Admissible (statements : Statements) (tokens : List Token) : Prop where
  inRange : ∀ token ∈ tokens, token.terminal.InRange
  distinct : statements.Distinct

/-- The program that a derivation denotes, without places. -/
def Statements.program (statements : Statements) : Program :=
  ⟨.blank, some (.mk .blank statements.nodes)⟩

end Derivation

end Parlance
