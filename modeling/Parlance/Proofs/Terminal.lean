import Parlance.Token

namespace Parlance

/-!
Terminals: what the grammar sees of a token. Places do not matter, and the
spelling of a word or symbol is given by its kind.
-/

inductive Terminal where
  | keyword (keyword : Keyword)
  | number (digits : Text)
  | string (raw : Text)
  | name (name : Text)
  | mark (mark : Symbol)
  | endOfFile
  | foreign (code : Int)
  deriving DecidableEq, Repr

namespace Terminal

def kind : Terminal → Kind
  | keyword word => .keyword word
  | number _ => .number
  | string _ => .string
  | name _ => .name
  | mark symbol => .mark symbol
  | endOfFile => .endOfFile
  | foreign code => .foreign code

/-- The terminal of a kind with the text it was written as. -/
def of (kind : Kind) (value : Text) : Terminal :=
  match kind with
  | .keyword word => .keyword word
  | .number => .number value
  | .string => .string value
  | .name => .name value
  | .mark symbol => .mark symbol
  | .endOfFile => .endOfFile
  | .foreign code => .foreign code

@[simp] theorem kind_of (kind : Kind) (value : Text) : (of kind value).kind = kind := by
  cases kind <;> rfl

/-- A number has to denote a 64-bit integer. -/
def InRange : Terminal → Prop
  | number digits => (Text.toInt64? digits).isSome
  | _ => True

instance : DecidablePred InRange
  | number digits => inferInstanceAs (Decidable ((Text.toInt64? digits).isSome = true))
  | keyword _ | mark _ | string _ | name _ | endOfFile | foreign _ =>
    inferInstanceAs (Decidable True)

end Terminal

def Token.terminal (token : Token) : Terminal :=
  .of token.kind token.value

namespace Token

variable {token : Token}

@[simp] theorem kind_terminal (token : Token) : token.terminal.kind = token.kind := by
  simp [terminal]

theorem terminal_of_keyword {word : Keyword} (same : token.kind = .keyword word) :
    token.terminal = .keyword word := by
  simp [terminal, Terminal.of, same]

theorem terminal_of_mark {symbol : Symbol} (same : token.kind = .mark symbol) :
    token.terminal = .mark symbol := by
  simp [terminal, Terminal.of, same]

theorem terminal_of_name (same : token.kind = .name) : token.terminal = .name token.value := by
  simp [terminal, Terminal.of, same]

theorem terminal_of_string (same : token.kind = .string) :
    token.terminal = .string token.value := by
  simp [terminal, Terminal.of, same]

theorem terminal_of_number (same : token.kind = .number) :
    token.terminal = .number token.value := by
  simp [terminal, Terminal.of, same]

theorem kind_of_terminal {terminal : Terminal}
    (same : token.terminal = terminal) : token.kind = terminal.kind := by
  rw [← kind_terminal, same]

theorem of_terminal_name {name : Text} (same : token.terminal = .name name) :
    token.kind = .name ∧ token.value = name := by
  have isName : token.kind = .name := kind_of_terminal same
  rw [terminal_of_name isName] at same
  exact ⟨isName, Terminal.name.inj same⟩

theorem of_terminal_string {raw : Text}
    (same : token.terminal = .string raw) : token.kind = .string ∧ token.value = raw := by
  have isString : token.kind = .string := kind_of_terminal same
  rw [terminal_of_string isString] at same
  exact ⟨isString, Terminal.string.inj same⟩

theorem of_terminal_number {digits : Text}
    (same : token.terminal = .number digits) : token.kind = .number ∧ token.value = digits := by
  have isNumber : token.kind = .number := kind_of_terminal same
  rw [terminal_of_number isNumber] at same
  exact ⟨isNumber, Terminal.number.inj same⟩

end Token

end Parlance
