import Parlance.Data
import Parlance.Text.Decimal
import Parlance.Text.Unicode

namespace Parlance.Json

/-!
JSON text. Characters that a web page could misread are escaped as well: the
angle brackets, the ampersand and the two Unicode line separators. A malformed
byte is written as U+FFFD.
-/

def hexDigit (value : Nat) : UInt8 :=
  if value < 10 then (48 + value).toUInt8 else (87 + value).toUInt8

def unicodeEscape (code : Nat) : Text :=
  utf8 "\\u" ++ [hexDigit (code / 4096 % 16), hexDigit (code / 256 % 16),
    hexDigit (code / 16 % 16), hexDigit (code % 16)]

def escapeChar (character : Char) : Text :=
  match character with
  | '"' => utf8 "\\\""
  | '\\' => utf8 "\\\\"
  | '\n' => utf8 "\\n"
  | '\r' => utf8 "\\r"
  | '\t' => utf8 "\\t"
  | _ =>
    let code := character.toNat
    if code = 8 then utf8 "\\b"
    else if code = 12 then utf8 "\\f"
    else if code < 32 || character = '<' || character = '>' || character = '&' ||
        code = 0x2028 || code = 0x2029 then
      unicodeEscape code
    else Text.encode character

def string (text : Text) : Text :=
  utf8 "\"" ++ text.chars.flatMap escapeChar ++ utf8 "\""

def bool (value : Bool) : Text :=
  if value then utf8 "true" else utf8 "false"

mutual

def compact : Data → Text
  | .null => utf8 "null"
  | .bool value => bool value
  | .int value => Text.ofInt value
  | .text value => string value
  | .list items => utf8 "[" ++ Text.join (utf8 ",") (compactItems items) ++ utf8 "]"
  | .record fields => utf8 "\x7b" ++ Text.join (utf8 ",") (compactFields fields) ++ utf8 "\x7d"

def compactItems : List Data → List Text
  | [] => []
  | item :: items => compact item :: compactItems items

def compactFields : List (Text × Data) → List Text
  | [] => []
  | (name, value) :: fields => (string name ++ utf8 ":" ++ compact value) :: compactFields fields

end

def lineBreak (depth : Nat) : Text :=
  Text.newline :: Text.repeated depth (utf8 "  ")

/-- Items on lines of their own between brackets; nothing between them if
there are none. -/
def enclosed (opening closing : Text) (depth : Nat) (items : List Text) : Text :=
  if items.isEmpty then opening ++ closing
  else
    opening ++ lineBreak (depth + 1) ++ Text.join (utf8 "," ++ lineBreak (depth + 1)) items ++
      lineBreak depth ++ closing

mutual

def indented (depth : Nat) : Data → Text
  | .null => utf8 "null"
  | .bool value => bool value
  | .int value => Text.ofInt value
  | .text value => string value
  | .list items => enclosed (utf8 "[") (utf8 "]") depth (indentedItems (depth + 1) items)
  | .record fields => enclosed (utf8 "\x7b") (utf8 "\x7d") depth (indentedFields (depth + 1) fields)

def indentedItems (depth : Nat) : List Data → List Text
  | [] => []
  | item :: items => indented depth item :: indentedItems depth items

def indentedFields (depth : Nat) : List (Text × Data) → List Text
  | [] => []
  | (name, value) :: fields =>
    (string name ++ utf8 ": " ++ indented depth value) :: indentedFields depth fields

end

end Parlance.Json
