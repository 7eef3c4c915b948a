import Parlance.Span

namespace Parlance

/-!
Syntax trees. A tree may be put together freely: any node may stand anywhere,
bodies may be missing and operators may be unknown. What the grammar builds is
a small part of these trees.
-/

inductive Operator where
  | add
  | subtract
  | multiply
  | divide
  | equal
  | less
  | greater
  | atMost
  | atLeast
  | assign
  | print
  | unknown (spelling : Text)
  deriving DecidableEq, Repr

namespace Operator

def spelling : Operator → Text
  | add => utf8 "+"
  | subtract => utf8 "-"
  | multiply => utf8 "*"
  | divide => utf8 "/"
  | equal => utf8 "UYTIN"
  | less => utf8 "ITHON"
  | greater => utf8 "NHIEUHON"
  | atMost => utf8 "ITBANG"
  | atLeast => utf8 "NHIEUBANG"
  | assign => utf8 "="
  | print => utf8 "NOILIENTUC"
  | unknown spelling => spelling

def known : List Operator :=
  [add, subtract, multiply, divide, equal, less, greater, atMost, atLeast, assign, print]

def ofSpelling (spelling : Text) : Operator :=
  (known.find? fun operator => operator.spelling = spelling).getD (unknown spelling)

end Operator

mutual

inductive Node where
  | number (span : Span) (value : Int64)
  /-- `raw` keeps the quotes of the source text. -/
  | string (span : Span) (raw : Text)
  | reference (span : Span) (name : Text)
  | call (span : Span) (name : Text) (arguments : List Node)
  | unary (span : Span) (operator : Operator) (operand : Node)
  | binary (span : Span) (operator : Operator) (left right : Node)
  | block (block : Block)
  /-- The alternative is another conditional for else-if chains. -/
  | conditional (span : Span) (condition : Node) (body : Option Block) (alternative : Option Node)
  | declaration (span : Span) (name : Text) (parameters : List Text) (body : Option Block)
  | giveBack (span : Span) (value : Node)
  | program (span : Span) (body : Option Block)

inductive Block where
  | mk (span : Span) (statements : List Node)

end

instance : Inhabited Node := ⟨.reference Span.blank []⟩

instance : Inhabited Block := ⟨.mk Span.blank []⟩

def Block.span : Block → Span
  | .mk span _ => span

def Block.statements : Block → List Node
  | .mk _ statements => statements

namespace Node

def span : Node → Span
  | number span _ | string span _ | reference span _ | call span _ _ | unary span _ _
  | binary span _ _ _ | conditional span _ _ _ | declaration span _ _ _ | giveBack span _
  | program span _ => span
  | block body => body.span

def form : Node → Text
  | number .. => utf8 "NumberLiteral"
  | string .. => utf8 "StringLiteral"
  | reference .. => utf8 "Variable"
  | call .. => utf8 "FunctionCall"
  | unary .. => utf8 "UnaryOp"
  | binary .. => utf8 "BinaryOp"
  | block .. => utf8 "Block"
  | conditional .. => utf8 "If"
  | declaration .. => utf8 "FunctionDeclaration"
  | giveBack .. => utf8 "Return"
  | program .. => utf8 "Program"

end Node

structure Program where
  span : Span
  body : Option Block

/-- The top-level statements; a missing body has none. -/
def Program.statements (program : Program) : List Node :=
  match program.body with
  | some body => body.statements
  | none => []

end Parlance
