import Parlance.Diagnostic
import Parlance.Token.Scanner
import Parlance.Tree.Grammar
import Parlance.Tree.Printer

namespace Parlance

/-! Source texts: scanning and parsing in one go. -/

inductive SourceError where
  | scan (error : ScanError)
  | grammar (error : SyntaxError)
  deriving DecidableEq, Repr

namespace SourceError

def diagnostic : SourceError → Diagnostic
  | scan error => ⟨Code.lexical.text, error.message, some error.span, error.hint⟩
  | grammar error => ⟨Code.grammar.text, error.message, some error.token.span, error.hint⟩

/-- Whether the source ended before a construct was closed, so that more
input could make it a program. -/
def incomplete : SourceError → Bool
  | scan _ => false
  | grammar error => error.atEnd

def message (error : SourceError) : Text :=
  error.diagnostic.code ++ utf8 ": " ++ error.diagnostic.message

end SourceError

def parse (file source : Text) : Except SourceError Program :=
  match tokenize file source with
  | .error error => .error (.scan error)
  | .ok tokens =>
    match parseTokens file tokens with
    | .error error => .error (.grammar error)
    | .ok program => .ok program

def format (file source : Text) : Except SourceError Text :=
  (parse file source).map Program.format

end Parlance
