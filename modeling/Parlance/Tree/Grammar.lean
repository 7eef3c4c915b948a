import Parlance.Token
import Parlance.Tree

namespace Parlance

/-!
Reading trees off token lists by recursive descent. A reader looks at the
tokens before the end of file; every reader takes at least one token off the
front, and its type says so, which is what makes the recursion end.
-/

inductive SyntaxFault where
  | expected (kinds : List Kind)
  | duplicateParameter (parameter function : Text)
  | integerRange
  deriving DecidableEq, Repr

structure SyntaxError where
  token : Token
  fault : SyntaxFault
  deriving DecidableEq, Repr

namespace SyntaxError

def expected (error : SyntaxError) : List Kind :=
  match error.fault with
  | .expected kinds => kinds
  | .duplicateParameter _ _ => [.name]
  | .integerRange => [.number]

def found (error : SyntaxError) : Text :=
  error.token.found

def message (error : SyntaxError) : Text :=
  match error.fault with
  | .expected kinds =>
    utf8 "expected " ++ Text.join (utf8 " or ") (kinds.map Kind.text) ++ utf8 ", found " ++ error.found
  | .duplicateParameter parameter function =>
    utf8 "duplicate parameter " ++ Text.quoted parameter ++ utf8 " in function " ++ Text.quoted function
  | .integerRange => utf8 "integer literal " ++ error.token.value ++ utf8 " is out of range"

def hint (error : SyntaxError) : Text :=
  match error.fault with
  | .expected _ => []
  | .duplicateParameter _ _ => utf8 "parameter names must be unique"
  | .integerRange => utf8 "integers are signed 64-bit"

def atEnd (error : SyntaxError) : Bool :=
  error.token.kind = .endOfFile

end SyntaxError

namespace Grammar

/-- A value read and the tokens behind it, of which there are fewer than `bound`. -/
structure Reading (bound : Nat) (α : Type) where
  value : α
  rest : List Token
  within : rest.length < bound

abbrev Reply (tokens : List Token) (α : Type) :=
  Except SyntaxError (Reading tokens.length α)

/-- Reads one token of the given kind. `stop` is the token at the end of file. -/
def take (stop : Token) (kind : Kind) : (tokens : List Token) → Reply tokens Token
  | [] => .error ⟨stop, .expected [kind]⟩
  | token :: rest =>
    if token.kind = kind then .ok ⟨token, rest, by simp⟩ else .error ⟨token, .expected [kind]⟩

/-- The binary operators of a precedence level; a higher level binds looser. -/
def operator? (level : Nat) (kind : Kind) : Option Operator :=
  match level, kind with
  | 0, .mark .star => some .multiply
  | 0, .mark .slash => some .divide
  | 1, .mark .plus => some .add
  | 1, .mark .minus => some .subtract
  | 2, .keyword .equal => some .equal
  | 2, .keyword .less => some .less
  | 2, .keyword .greater => some .greater
  | 2, .keyword .atMost => some .atMost
  | 2, .keyword .atLeast => some .atLeast
  | _, _ => none

abbrev loosest : Nat := 3

def formulaStarts : List Kind :=
  [.number, .string, .name, .mark .openParen]

def joined (operator : Operator) (left right : Node) : Node :=
  .binary (left.span.cover right.span) operator left right

mutual

/-- Level zero is a primary; a level above it is a chain of operands of the
level below, grouped to the left. -/
def formula (stop : Token) (level : Nat) (tokens : List Token) : Reply tokens Node :=
  match level with
  | 0 => primary stop tokens
  | level + 1 =>
    match formula stop level tokens with
    | .error error => .error error
    | .ok ⟨left, rest, _within⟩ =>
      match chain stop level left rest with
      | .error error => .error error
      | .ok ⟨whole, rest, _⟩ => .ok ⟨whole, rest, by omega⟩
termination_by (tokens.length, level + 1)

def chain (stop : Token) (level : Nat) (left : Node) (tokens : List Token) :
    Except SyntaxError (Reading (tokens.length + 1) Node) :=
  match tokens with
  | [] => .ok ⟨left, [], by simp⟩
  | token :: rest =>
    match operator? level token.kind with
    | none => .ok ⟨left, token :: rest, by simp⟩
    | some operator =>
      match formula stop level rest with
      | .error error => .error error
      | .ok ⟨right, rest', _within⟩ =>
        match chain stop level (joined operator left right) rest' with
        | .error error => .error error
        | .ok ⟨whole, rest'', _⟩ => .ok ⟨whole, rest'', by simp only [List.length_cons]; omega⟩
termination_by (tokens.length, 0)
decreasing_by
  · simp only [List.length_cons]; exact Prod.Lex.left _ _ (by omega)
  · simp only [List.length_cons]; exact Prod.Lex.left _ _ (by omega)

/-- A name in front of an opening parenthesis is always a call. -/
def primary (stop : Token) (tokens : List Token) : Reply tokens Node :=
  match tokens with
  | [] => .error ⟨stop, .expected formulaStarts⟩
  | token :: rest =>
    match token.kind with
    | .mark .openParen =>
      match formula stop loosest rest with
      | .error error => .error error
      | .ok ⟨inner, rest', _⟩ =>
        match take stop (.mark .closeParen) rest' with
        | .error error => .error error
        | .ok ⟨_, rest'', _⟩ => .ok ⟨inner, rest'', by simp only [List.length_cons]; omega⟩
    | .number =>
      match Text.toInt64? token.value with
      | none => .error ⟨token, .integerRange⟩
      | some value => .ok ⟨.number token.span value, rest, by simp⟩
    | .string => .ok ⟨.string token.span token.value, rest, by simp⟩
    | .name =>
      match rest with
      | [] => .ok ⟨.reference token.span token.value, [], by simp⟩
      | next :: rest' =>
        if next.kind = .mark .openParen then
          match arguments stop rest' with
          | .error error => .error error
          | .ok ⟨(values, closing), rest'', _⟩ =>
            .ok ⟨.call (token.span.cover closing.span) token.value values, rest'',
              by simp only [List.length_cons]; omega⟩
        else .ok ⟨.reference token.span token.value, next :: rest', by simp⟩
    | _ => .error ⟨token, .expected formulaStarts⟩
termination_by (tokens.length, 0)
decreasing_by
  · simp only [List.length_cons]; exact Prod.Lex.left _ _ (by omega)
  · simp only [List.length_cons]; exact Prod.Lex.left _ _ (by omega)

def arguments (stop : Token) (tokens : List Token) : Reply tokens (List Node × Token) :=
  match tokens with
  | [] => .error ⟨stop, .expected formulaStarts⟩
  | token :: rest =>
    if token.kind = .mark .closeParen then .ok ⟨([], token), rest, by simp⟩
    else argumentList stop (token :: rest)
termination_by (tokens.length, loosest + 3)

def argumentList (stop : Token) (tokens : List Token) : Reply tokens (List Node × Token) :=
  match formula stop loosest tokens with
  | .error error => .error error
  | .ok ⟨value, rest, _within⟩ =>
    match rest with
    | [] => .error ⟨stop, .expected [.mark .comma, .mark .closeParen]⟩
    | token :: rest' =>
      if token.kind = .mark .comma then
        match argumentList stop rest' with
        | .error error => .error error
        | .ok ⟨(values, closing), rest'', _⟩ =>
          .ok ⟨(value :: values, closing), rest'',
            by simp only [List.length_cons] at _within; omega⟩
      else if token.kind = .mark .closeParen then
        .ok ⟨([value], token), rest', by simp only [List.length_cons] at _within; omega⟩
      else .error ⟨token, .expected [.mark .comma, .mark .closeParen]⟩
termination_by (tokens.length, loosest + 2)
decreasing_by
  · exact Prod.Lex.right _ (by omega)
  · exact Prod.Lex.left _ _ (by simp only [List.length_cons] at _within; omega)

end

/-- Parameter names up to the first token that is not a comma. -/
def parameterList (stop : Token) (function : Text) (seen : List Text) :
    (tokens : List Token) → Reply tokens (List Text)
  | [] => .error ⟨stop, .expected [.name]⟩
  | [token] =>
    if token.kind = .name then
      if token.value ∈ seen then .error ⟨token, .duplicateParameter token.value function⟩
      else .ok ⟨[token.value], [], by simp⟩
    else .error ⟨token, .expected [.name]⟩
  | token :: next :: rest =>
    if token.kind = .name then
      if token.value ∈ seen then .error ⟨token, .duplicateParameter token.value function⟩
      else if next.kind = .mark .comma then
        match parameterList stop function (token.value :: seen) rest with
        | .error error => .error error
        | .ok ⟨names, rest', _⟩ =>
          .ok ⟨token.value :: names, rest', by simp only [List.length_cons]; omega⟩
      else .ok ⟨[token.value], next :: rest, by simp⟩
    else .error ⟨token, .expected [.name]⟩

def parameters (stop : Token) (function : Text) (tokens : List Token) : Reply tokens (List Text) :=
  match tokens with
  | [] => .error ⟨stop, .expected [.name]⟩
  | token :: rest =>
    if token.kind = .mark .closeParen then .ok ⟨[], rest, by simp⟩
    else
      match parameterList stop function [] (token :: rest) with
      | .error error => .error error
      | .ok ⟨_, [], _⟩ => .error ⟨stop, .expected [.mark .comma, .mark .closeParen]⟩
      | .ok ⟨names, closing :: rest', _⟩ =>
        if closing.kind = .mark .closeParen then
          .ok ⟨names, rest', by simp_all only [List.length_cons]; omega⟩
        else .error ⟨closing, .expected [.mark .comma, .mark .closeParen]⟩

/-- A terminator is required behind the statement. -/
def terminated (stop : Token) {tokens : List Token} (reply : Reply tokens Node) : Reply tokens Node :=
  match reply with
  | .error error => .error error
  | .ok ⟨node, rest, _⟩ =>
    match take stop (.keyword .terminator) rest with
    | .error error => .error error
    | .ok ⟨_, rest', _⟩ => .ok ⟨node, rest', by omega⟩

/-- A terminator behind the statement is taken if there is one. -/
def selfDelimited {tokens : List Token} (reply : Reply tokens Node) : Reply tokens Node :=
  match reply with
  | .error error => .error error
  | .ok ⟨node, [], within⟩ => .ok ⟨node, [], within⟩
  | .ok ⟨node, token :: rest, _⟩ =>
    if token.kind = .keyword .terminator then
      .ok ⟨node, rest, by simp_all only [List.length_cons]; omega⟩
    else .ok ⟨node, token :: rest, by assumption⟩

/-- A formula, or an assignment of one formula to another. -/
def assignment (stop : Token) (tokens : List Token) : Reply tokens Node :=
  match formula stop loosest tokens with
  | .error error => .error error
  | .ok ⟨left, [], within⟩ => .ok ⟨left, [], within⟩
  | .ok ⟨left, token :: rest, _⟩ =>
    if token.kind = .mark .assign then
      match formula stop loosest rest with
      | .error error => .error error
      | .ok ⟨right, rest', _⟩ =>
        .ok ⟨joined .assign left right, rest', by simp_all only [List.length_cons]; omega⟩
    else .ok ⟨left, token :: rest, by assumption⟩

mutual

def statement (stop : Token) (tokens : List Token) : Reply tokens Node :=
  match tokens with
  | [] => terminated stop (assignment stop [])
  | token :: rest =>
    match token.kind with
    | .keyword .function => selfDelimited (declaration stop token rest)
    | .keyword .giveBack =>
      selfDelimited <|
        match formula stop loosest rest with
        | .error error => .error error
        | .ok ⟨value, rest', _⟩ =>
          .ok ⟨.giveBack (token.span.cover value.span) value, rest',
            by simp only [List.length_cons]; omega⟩
    | .keyword .ifWord => selfDelimited (conditional stop token rest)
    | .keyword .print =>
      terminated stop <|
        match formula stop loosest rest with
        | .error error => .error error
        | .ok ⟨operand, rest', _⟩ =>
          .ok ⟨.unary (token.span.cover operand.span) .print operand, rest',
            by simp only [List.length_cons]; omega⟩
    | _ => terminated stop (assignment stop (token :: rest))
termination_by (tokens.length, 0)

def declaration (stop first : Token) (tokens : List Token) : Reply (first :: tokens) Node :=
  match take stop .name tokens with
  | .error error => .error error
  | .ok ⟨name, rest, _⟩ =>
    match take stop (.mark .openParen) rest with
    | .error error => .error error
    | .ok ⟨_, rest, _⟩ =>
      match parameters stop name.value rest with
      | .error error => .error error
      | .ok ⟨names, rest, _⟩ =>
        match block stop rest with
        | .error error => .error error
        | .ok ⟨body, rest, _⟩ =>
          .ok ⟨.declaration (first.span.cover body.span) name.value names (some body), rest,
            by simp only [List.length_cons]; omega⟩
termination_by (tokens.length, 2)

def conditional (stop first : Token) (tokens : List Token) : Reply (first :: tokens) Node :=
  match formula stop loosest tokens with
  | .error error => .error error
  | .ok ⟨condition, rest, _⟩ =>
    match block stop rest with
    | .error error => .error error
    | .ok ⟨body, [], _⟩ =>
      .ok ⟨.conditional (first.span.cover body.span) condition (some body) none, [], by simp⟩
    | .ok ⟨body, token :: rest', _⟩ =>
      if token.kind = .keyword .elseWord then
        match rest' with
        | [] => .error ⟨stop, .expected [.keyword .ifWord, .keyword .openBlock]⟩
        | next :: rest'' =>
          match next.kind with
          | .keyword .ifWord =>
            match conditional stop next rest'' with
            | .error error => .error error
            | .ok ⟨alternative, rest''', _⟩ =>
              .ok ⟨.conditional (first.span.cover alternative.span) condition (some body)
                (some alternative), rest''', by simp_all only [List.length_cons]; omega⟩
          | .keyword .openBlock =>
            match block stop (next :: rest'') with
            | .error error => .error error
            | .ok ⟨alternative, rest''', _⟩ =>
              .ok ⟨.conditional (first.span.cover alternative.span) condition (some body)
                (some (.block alternative)), rest''', by simp_all only [List.length_cons]; omega⟩
          | _ => .error ⟨next, .expected [.keyword .ifWord, .keyword .openBlock]⟩
      else
        .ok ⟨.conditional (first.span.cover body.span) condition (some body) none, token :: rest',
          by simp_all only [List.length_cons]; omega⟩
termination_by (tokens.length, 2)
decreasing_by
  · exact Prod.Lex.left _ _ (by omega)
  · exact Prod.Lex.left _ _ (by simp_all only [List.length_cons]; omega)
  · exact Prod.Lex.left _ _ (by simp_all only [List.length_cons]; omega)

def block (stop : Token) (tokens : List Token) : Reply tokens Block :=
  match take stop (.keyword .openBlock) tokens with
  | .error error => .error error
  | .ok ⟨first, rest, _⟩ =>
    match statements stop rest with
    | .error error => .error error
    | .ok ⟨(body, last), rest', _⟩ => .ok ⟨.mk (first.span.cover last.span) body, rest', by omega⟩
termination_by (tokens.length, 1)

def statements (stop : Token) (tokens : List Token) : Reply tokens (List Node × Token) :=
  match tokens with
  | [] => .error ⟨stop, .expected [.keyword .closeBlock]⟩
  | token :: rest =>
    if token.kind = .keyword .closeBlock then .ok ⟨([], token), rest, by simp⟩
    else
      match statement stop (token :: rest) with
      | .error error => .error error
      | .ok ⟨first, rest', _⟩ =>
        match statements stop rest' with
        | .error error => .error error
        | .ok ⟨(others, last), rest'', _⟩ =>
          .ok ⟨(first :: others, last), rest'', by simp_all only [List.length_cons]; omega⟩
termination_by (tokens.length, 1)

end

def topLevel (stop : Token) (tokens : List Token) : Except SyntaxError (List Node) :=
  match tokens with
  | [] => .ok []
  | token :: rest =>
    match statement stop (token :: rest) with
    | .error error => .error error
    | .ok ⟨first, rest', _⟩ =>
      match topLevel stop rest' with
      | .error error => .error error
      | .ok others => .ok (first :: others)
termination_by tokens.length
decreasing_by assumption

/-- The end of file that closes a token list: its first one, or one put
behind the last token. -/
def endToken (file : Text) (tokens : List Token) : Token :=
  match tokens.find? fun token => token.kind = .endOfFile with
  | some token => token
  | none =>
    match tokens.getLast? with
    | some last => ⟨.endOfFile, [], last.offset + last.value.length, last.span.atEnd⟩
    | none => ⟨.endOfFile, [], 0, ⟨file, .origin, .origin⟩⟩

end Grammar

/-- Reads a program off a token list. Nothing behind the first end of file is
looked at, and a list without one is closed at its end. -/
def parseTokens (file : Text) (tokens : List Token) : Except SyntaxError Program :=
  let stop := Grammar.endToken file tokens
  let body := tokens.takeWhile fun token => token.kind ≠ .endOfFile
  match Grammar.topLevel stop body with
  | .error error => .error error
  | .ok statements =>
    let first := ((body.head?).getD stop).span
    let first := if first.file = [] then { first with file := file } else first
    let span := first.cover stop.span
    .ok ⟨span, some (.mk span statements)⟩

end Parlance
