import Parlance.Tree.Grammar

namespace Parlance

/-!
Recursive descent over a cursor: the grammar as procedures on a state that holds a
position in a token list and a field for the first error. Taking a token at the end
leaves the position where it is, a procedure that has failed returns nothing, and
nothing in the definitions keeps a loop from running on for ever.
-/

/-- The token list is `tokens` with an end of file behind them. -/
structure Cursor where
  tokens : List Token
  last : Token
  ended : last.kind = .endOfFile
  position : Nat
  fault : Option SyntaxError
  /-- The tokens that were taken, in this order. -/
  taken : List Token

namespace Cursor

def current (cursor : Cursor) : Token :=
  cursor.tokens[cursor.position]?.getD cursor.last

/-- The kind of the token behind the current one. -/
def nextKind (cursor : Cursor) : Kind :=
  (cursor.tokens[cursor.position + 1]?.map Token.kind).getD .endOfFile

/-- Takes the current token, but stays at the last one. -/
def advanced (cursor : Cursor) : Cursor :=
  { cursor with
    position := if cursor.position < cursor.tokens.length then cursor.position + 1
      else cursor.position
    taken := cursor.taken ++ [cursor.current] }

/-- Only the first error is kept. -/
def refused (cursor : Cursor) (error : SyntaxError) : Cursor :=
  { cursor with fault := cursor.fault.or (some error) }

/-- The first token of a list that gets an end of file if its last token is none. -/
def start (file : Text) (tokens : List Token) : Cursor :=
  match tokens.getLast? with
  | none => ⟨[], ⟨.endOfFile, [], 0, ⟨file, .origin, .origin⟩⟩, rfl, 0, none, []⟩
  | some last =>
    if ended : last.kind = .endOfFile then ⟨tokens.dropLast, last, ended, 0, none, []⟩
    else
      ⟨tokens, ⟨.endOfFile, [], last.offset + last.value.length, last.span.atEnd⟩, rfl, 0, none, []⟩

end Cursor

/-- A procedure on a cursor. It may run on for ever, or return without a value. -/
abbrev Descent := OptionT (StateT Cursor Option)

namespace Descent

open Grammar (joined loosest operator? formulaStarts)

def current : Descent Token := do
  return (← get).current

def nextKind : Descent Kind := do
  return (← get).nextKind

def advance : Descent Token := do
  let cursor ← get
  set cursor.advanced
  return cursor.current

def refuse {α : Type} (token : Token) (fault : SyntaxFault) : Descent α := do
  modify (·.refused ⟨token, fault⟩)
  failure

def expect (kind : Kind) : Descent Token := do
  let token ← current
  if token.kind = kind then advance else refuse token (.expected [kind])

/-- Takes the current token if it is of the given kind. -/
def accept (kind : Kind) : Descent Bool := do
  if (← current).kind = kind then
    let _ ← advance
    return true
  else return false

/-- Closes a list in parentheses. -/
def close : Descent Token := do
  let closing ← current
  if closing.kind = .mark .closeParen then advance
  else refuse closing (.expected [.mark .comma, .mark .closeParen])

/-- A terminator behind the statement is taken if there is one. -/
def selfDelimited (node : Node) : Descent Node := do
  let _ ← accept (.keyword .terminator)
  return node

/-- A terminator is required behind the statement. -/
def terminated (node : Node) : Descent Node := do
  let _ ← expect (.keyword .terminator)
  return node

/-- The procedures that call each other, by what they return. A loop repeats a pass,
which says what there is now and whether to go on. -/
inductive Procedure : Type → Type where
  | formula (level : Nat) : Procedure Node
  | operators (level : Nat) (left : Node) : Procedure Node
  | operatorPass (level : Nat) (left : Node) : Procedure (Node × Bool)
  | primary : Procedure Node
  | call : Procedure Node
  | argumentList : Procedure (List Node)
  | arguments (values : List Node) : Procedure (List Node)
  | argumentPass (values : List Node) : Procedure (List Node × Bool)
  | statement : Procedure Node
  | declaration : Procedure Node
  | parameterList (function : Text) : Procedure (List Text)
  | parameters (function : Text) (names : List Text) : Procedure (List Text)
  | parameterPass (function : Text) (names : List Text) : Procedure (List Text × Bool)
  | giveBack : Procedure Node
  | conditional : Procedure Node
  | branch : Procedure Node
  | print : Procedure Node
  | assignment : Procedure Node
  | block : Procedure Block
  | statements (nodes : List Node) : Procedure (List Node)
  | statementPass (nodes : List Node) : Procedure (List Node × Bool)
  | programStatements (nodes : List Node) : Procedure (List Node)
  | programPass (nodes : List Node) : Procedure (List Node × Bool)

namespace Procedure

def run {α : Type} (procedure : Procedure α) : Descent α :=
  match procedure with
  | .formula 0 => primary |>.run
  | .formula (level + 1) => do
    let left ← formula level |>.run
    operators level left |>.run
  | .operators level left => do
    let (left, more) ← operatorPass level left |>.run
    if more then operators level left |>.run else return left
  | .operatorPass level left => do
    match operator? level (← current).kind with
    | none => return (left, false)
    | some operator =>
      let _ ← advance
      let right ← formula level |>.run
      return (joined operator left right, true)
  | .primary => do
    let token ← current
    match token.kind with
    | .mark .openParen =>
      let _ ← advance
      let inner ← formula loosest |>.run
      let _ ← expect (.mark .closeParen)
      return inner
    | .number =>
      let _ ← advance
      match Text.toInt64? token.value with
      | none => refuse token .integerRange
      | some value => return .number token.span value
    | .string =>
      let _ ← advance
      return .string token.span token.value
    | .name =>
      if (← nextKind) = .mark .openParen then call |>.run
      else
        let _ ← advance
        return .reference token.span token.value
    | _ => refuse token (.expected formulaStarts)
  | .call => do
    let name ← advance
    let _ ← advance
    let values ← argumentList |>.run
    let closing ← close
    return .call (name.span.cover closing.span) name.value values
  | .argumentList => do
    if (← current).kind = .mark .closeParen then return [] else arguments [] |>.run
  | .arguments values => do
    let (values, more) ← argumentPass values |>.run
    if more then arguments values |>.run else return values
  | .argumentPass values => do
    let value ← formula loosest |>.run
    let more ← accept (.mark .comma)
    return (values ++ [value], more)
  | .statement => do
    match (← current).kind with
    | .keyword .function =>
      let node ← declaration |>.run
      selfDelimited node
    | .keyword .giveBack =>
      let node ← giveBack |>.run
      selfDelimited node
    | .keyword .ifWord =>
      let node ← conditional |>.run
      selfDelimited node
    | .keyword .print =>
      let node ← print |>.run
      terminated node
    | _ =>
      let node ← assignment |>.run
      terminated node
  | .declaration => do
    let first ← advance
    let name ← expect .name
    let _ ← expect (.mark .openParen)
    let names ← parameterList name.value |>.run
    let _ ← close
    let body ← block |>.run
    return .declaration (first.span.cover body.span) name.value names (some body)
  | .parameterList function => do
    if (← current).kind = .mark .closeParen then return [] else parameters function [] |>.run
  | .parameters function names => do
    let (names, more) ← parameterPass function names |>.run
    if more then parameters function names |>.run else return names
  | .parameterPass function names => do
    let name ← expect .name
    if names.contains name.value then refuse name (.duplicateParameter name.value function)
    else
      let more ← accept (.mark .comma)
      return (names ++ [name.value], more)
  | .giveBack => do
    let first ← advance
    let value ← formula loosest |>.run
    return .giveBack (first.span.cover value.span) value
  | .conditional => do
    let first ← advance
    let condition ← formula loosest |>.run
    let body ← block |>.run
    if ← accept (.keyword .elseWord) then
      let alternative ← branch |>.run
      return .conditional (first.span.cover alternative.span) condition (some body) (some alternative)
    else return .conditional (first.span.cover body.span) condition (some body) none
  | .branch => do
    let next ← current
    match next.kind with
    | .keyword .ifWord => conditional |>.run
    | .keyword .openBlock =>
      let body ← block |>.run
      return .block body
    | _ => refuse next (.expected [.keyword .ifWord, .keyword .openBlock])
  | .print => do
    let first ← advance
    let operand ← formula loosest |>.run
    return .unary (first.span.cover operand.span) .print operand
  | .assignment => do
    let left ← formula loosest |>.run
    if ← accept (.mark .assign) then
      let right ← formula loosest |>.run
      return joined .assign left right
    else return left
  | .block => do
    let first ← expect (.keyword .openBlock)
    let nodes ← statements [] |>.run
    let last ← advance
    return .mk (first.span.cover last.span) nodes
  | .statements nodes => do
    let (nodes, more) ← statementPass nodes |>.run
    if more then statements nodes |>.run else return nodes
  | .statementPass nodes => do
    let token ← current
    if token.kind = .keyword .closeBlock then return (nodes, false)
    else if token.kind = .endOfFile then refuse token (.expected [.keyword .closeBlock])
    else
      let node ← statement |>.run
      return (nodes ++ [node], true)
  | .programStatements nodes => do
    let (nodes, more) ← programPass nodes |>.run
    if more then programStatements nodes |>.run else return nodes
  | .programPass nodes => do
    if (← current).kind = .endOfFile then return (nodes, false)
    else
      let node ← statement |>.run
      return (nodes ++ [node], true)
partial_fixpoint

end Procedure

def program (file : Text) : Descent Program := do
  let first := (← current).span
  let first := if first.file = [] then { first with file := file } else first
  let nodes ← Procedure.programStatements [] |>.run
  let last ← current
  let span := first.cover last.span
  return ⟨span, some (.mk span nodes)⟩

/-- What a procedure comes to: nothing if it runs on for ever, and otherwise the value that it
returns, if it does return one, and the cursor that it leaves. -/
def perform {α : Type} (procedure : Descent α) (cursor : Cursor) : Option (Option α × Cursor) :=
  procedure.run.run cursor

end Descent

end Parlance
