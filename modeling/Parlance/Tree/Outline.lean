import Parlance.Tree
import Parlance.Data

namespace Parlance

/-!
Outlines: trees as structured data with their fields in alphabetical order.
Of the span only the start is kept.
-/

namespace Outline

def start (span : Span) : Text × Data :=
  (utf8 "at", .text span.startText)

def form (name : String) : Text × Data :=
  (utf8 "kind", .text (utf8 name))

mutual

def node : Node → Data
  | .number span value =>
    .record [start span, form "NumberLiteral", (utf8 "value", .int value.toInt)]
  | .string span raw => .record [start span, form "StringLiteral", (utf8 "raw", .text raw)]
  | .reference span name => .record [start span, form "Variable", (utf8 "name", .text name)]
  | .call span name arguments =>
    .record [(utf8 "args", .list (nodes arguments)), start span, form "FunctionCall",
      (utf8 "name", .text name)]
  | .unary span operator operand =>
    .record [start span, form "UnaryOp", (utf8 "op", .text operator.spelling),
      (utf8 "operand", node operand)]
  | .binary span operator left right =>
    .record [start span, form "BinaryOp", (utf8 "left", node left),
      (utf8 "op", .text operator.spelling), (utf8 "right", node right)]
  | .block body => block body
  | .conditional span condition body none =>
    .record [start span, (utf8 "cond", node condition), form "If", (utf8 "then", optionalBlock body)]
  | .conditional span condition body (some alternative) =>
    .record [start span, (utf8 "cond", node condition), (utf8 "else", node alternative), form "If",
      (utf8 "then", optionalBlock body)]
  | .declaration span name parameters body =>
    .record [start span, (utf8 "body", optionalBlock body), form "FunctionDeclaration",
      (utf8 "name", .text name), (utf8 "params", Data.texts parameters)]
  | .giveBack span value => .record [start span, form "Return", (utf8 "value", node value)]
  | .program span body =>
    .record [start span, (utf8 "body", optionalBlock body), (utf8 "file", .text span.file),
      form "Program"]

def nodes : List Node → List Data
  | [] => []
  | first :: rest => node first :: nodes rest

def block : Block → Data
  | .mk span statements =>
    .record [start span, form "Block", (utf8 "statements", .list (nodes statements))]

def optionalBlock : Option Block → Data
  | none => .null
  | some body => block body

end

end Outline

def Node.outline (node : Node) : Data :=
  Outline.node node

def Program.outline (program : Program) : Data :=
  Outline.node (.program program.span program.body)

end Parlance
