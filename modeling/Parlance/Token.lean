import Parlance.Span

namespace Parlance

/-!
Tokens. Upper-case words are reserved for the thirteen keywords; everything
else is a number, a string, a name or one of eight symbols.
-/

inductive Keyword where
  | terminator
  | print
  | equal
  | less
  | greater
  | atMost
  | atLeast
  | openBlock
  | closeBlock
  | ifWord
  | elseWord
  | function
  | giveBack
  deriving DecidableEq, Repr

namespace Keyword

def spelling : Keyword → Text
  | terminator => utf8 "IM"
  | print => utf8 "NOILIENTUC"
  | equal => utf8 "UYTIN"
  | less => utf8 "ITHON"
  | greater => utf8 "NHIEUHON"
  | atMost => utf8 "ITBANG"
  | atLeast => utf8 "NHIEUBANG"
  | openBlock => utf8 "ME"
  | closeBlock => utf8 "MAY"
  | ifWord => utf8 "NEU"
  | elseWord => utf8 "KOTHI"
  | function => utf8 "THE"
  | giveBack => utf8 "TRA"

def all : List Keyword :=
  [terminator, print, equal, less, greater, atMost, atLeast, openBlock, closeBlock,
    ifWord, elseWord, function, giveBack]

def ofSpelling? (word : Text) : Option Keyword :=
  all.find? fun keyword => keyword.spelling = word

theorem ofSpelling?_spelling (keyword : Keyword) :
    ofSpelling? keyword.spelling = some keyword := by
  cases keyword <;> decide

theorem spelling_of_ofSpelling? {word : Text} {keyword : Keyword}
    (found : ofSpelling? word = some keyword) : keyword.spelling = word := by
  have matched := List.find?_some found
  simpa using matched

end Keyword

/-- Tokens that are one punctuation byte. -/
inductive Symbol where
  | openParen
  | closeParen
  | comma
  | assign
  | plus
  | minus
  | star
  | slash
  deriving DecidableEq, Repr

namespace Symbol

def byte : Symbol → UInt8
  | openParen => Text.byte '('
  | closeParen => Text.byte ')'
  | comma => Text.byte ','
  | assign => Text.byte '='
  | plus => Text.byte '+'
  | minus => Text.byte '-'
  | star => Text.byte '*'
  | slash => Text.byte '/'

def all : List Symbol :=
  [openParen, closeParen, comma, assign, plus, minus, star, slash]

def ofByte? (b : UInt8) : Option Symbol :=
  all.find? fun mark => mark.byte = b

theorem ofByte?_byte (mark : Symbol) : ofByte? mark.byte = some mark := by
  cases mark <;> decide

theorem byte_of_ofByte? {b : UInt8} {mark : Symbol} (found : ofByte? b = some mark) :
    mark.byte = b := by
  have matched := List.find?_some found
  simpa using matched

end Symbol

/-- What a token is. `foreign` kinds come only from token lists that the
scanner did not make, and no grammar rule accepts them. -/
inductive Kind where
  | keyword (keyword : Keyword)
  | number
  | string
  | name
  | mark (mark : Symbol)
  | endOfFile
  | foreign (code : Int)
  deriving DecidableEq, Repr

namespace Kind

def isKeyword : Kind → Bool
  | keyword _ => true
  | _ => false

def text : Kind → Text
  | keyword word => Text.quoted word.spelling
  | number => utf8 "number"
  | string => utf8 "string"
  | name => utf8 "identifier"
  | mark symbol => Text.quoted [symbol.byte]
  | endOfFile => utf8 "end of file"
  | foreign code => utf8 "token(" ++ Text.ofInt code ++ utf8 ")"

end Kind

structure Token where
  kind : Kind
  value : Text
  offset : Nat
  span : Span
  deriving DecidableEq, Repr

def Token.found (token : Token) : Text :=
  if token.kind = .endOfFile then Kind.endOfFile.text else Text.quoted token.value

end Parlance
