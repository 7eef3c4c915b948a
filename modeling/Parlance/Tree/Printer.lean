import Parlance.Tree

namespace Parlance

/-!
The canonical source text of a tree. Parentheses are written only where the
grammar would group the operands differently without them, and every statement
that can end with the terminator does, so that the next one cannot be read as
its continuation.
-/

namespace Printer

def precedence : Operator → Nat
  | .equal | .less | .greater | .atMost | .atLeast => 1
  | .add | .subtract => 2
  | .multiply | .divide => 3
  | _ => 0

/-- Operands of the same precedence group to the left, so only the right one
needs parentheses. -/
def needsParens (parent : Operator) (isRight : Bool) : Node → Bool
  | .binary _ child _ _ =>
    precedence child < precedence parent || (precedence child = precedence parent && isRight)
  | _ => false

def parenthesized (needed : Bool) (text : Text) : Text :=
  if needed then utf8 "(" ++ text ++ utf8 ")" else text

mutual

/-- The text of a formula; nodes that are none have no text. -/
def expression : Node → Text
  | .number _ value => Text.ofInt64 value
  | .string _ raw => raw
  | .reference _ name => name
  | .call _ name arguments =>
    name ++ utf8 "(" ++ Text.join (utf8 ", ") (expressions arguments) ++ utf8 ")"
  | .binary _ operator left right =>
    parenthesized (needsParens operator false left) (expression left) ++
      utf8 " " ++ operator.spelling ++ utf8 " " ++
      parenthesized (needsParens operator true right) (expression right)
  | .unary _ operator operand => operator.spelling ++ utf8 " " ++ expression operand
  | _ => []

def expressions : List Node → List Text
  | [] => []
  | node :: nodes => expression node :: expressions nodes

end

def indent (depth : Nat) : Text :=
  Text.repeated depth (utf8 "  ")

/-- Lines inside the words that open and close a block. The opening word
stays on the line it is on. -/
def enclosed (depth : Nat) (lines : List Text) : Text :=
  if lines.isEmpty then utf8 "ME\n" ++ indent depth ++ utf8 "MAY"
  else utf8 "ME\n" ++ Text.join (utf8 "\n") lines ++ utf8 "\n" ++ indent depth ++ utf8 "MAY"

mutual

def statement (depth : Nat) : Node → Text
  | .declaration _ name parameters body =>
    indent depth ++ utf8 "THE " ++ name ++ utf8 "(" ++ Text.join (utf8 ", ") parameters ++
      utf8 ") " ++ optionalBlock depth body
  | .conditional _ condition body alternative =>
    indent depth ++ utf8 "NEU " ++ expression condition ++ utf8 " " ++ optionalBlock depth body ++
      otherwise depth alternative
  | .giveBack _ value => indent depth ++ utf8 "TRA " ++ expression value ++ utf8 " IM"
  | .unary _ operator operand =>
    indent depth ++ operator.spelling ++ utf8 " " ++ expression operand ++ utf8 " IM"
  | .block (.mk _ nodes) => Text.join (utf8 "\n") (statements depth nodes)
  | node => indent depth ++ expression node ++ utf8 " IM"

def statements (depth : Nat) : List Node → List Text
  | [] => []
  | node :: nodes => statement depth node :: statements depth nodes

def block (depth : Nat) : Block → Text
  | .mk _ nodes => enclosed depth (statements (depth + 1) nodes)

def optionalBlock (depth : Nat) : Option Block → Text
  | none => enclosed depth []
  | some body => block depth body

/-- The alternative of a conditional, which continues its last line. -/
def otherwise (depth : Nat) : Option Node → Text
  | some (.conditional _ condition body alternative) =>
    utf8 " KOTHI NEU " ++ expression condition ++ utf8 " " ++ optionalBlock depth body ++
      otherwise depth alternative
  | some (.block body) => utf8 " KOTHI " ++ block depth body
  | _ => []

end

def lineHasComment (inString : Bool) : Text → Bool
  | [] => false
  | b :: rest =>
    let inString := if b = Text.quote then !inString else inString
    (!inString && b = Text.byte '/' && rest.head? = some (Text.byte '/')) ||
      lineHasComment inString rest

end Printer

/-- The canonical text of a program, one statement a line. -/
def Program.format (program : Program) : Text :=
  match program.statements with
  | [] => []
  | statements => Text.join (utf8 "\n") (Printer.statements 0 statements) ++ utf8 "\n"

def hasComments (source : Text) : Bool :=
  (Text.splitOn Text.newline source).any (Printer.lineHasComment false)

end Parlance
