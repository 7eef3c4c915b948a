import Parlance.Text.Printable
import Parlance.Text.Radix

namespace Parlance.Text

/-!
Text between double quotes, as messages show paths and names. Characters that
cannot be seen are written as escapes, and so is every malformed byte.
-/

def quotedChar (character : Char) : Text :=
  let code := character.toNat
  if character = '"' || character = '\\' then byte '\\' :: encode character
  else if isPrintable character then encode character
  else if code = 7 then utf8 "\\a"
  else if code = 8 then utf8 "\\b"
  else if code = 9 then utf8 "\\t"
  else if code = 10 then utf8 "\\n"
  else if code = 11 then utf8 "\\v"
  else if code = 12 then utf8 "\\f"
  else if code = 13 then utf8 "\\r"
  else if code < 0x20 || code = 0x7F then utf8 "\\x" ++ hexDigits false 2 code
  else if code < 0x10000 then utf8 "\\u" ++ hexDigits false 4 code
  else utf8 "\\U" ++ hexDigits false 8 code

/-- Walks the characters; `pending` bytes still belong to the last one. -/
def quotedFrom : Nat → Text → Text
  | _, [] => []
  | pending + 1, _ :: rest => quotedFrom pending rest
  | 0, b :: rest =>
    match sequence? (b :: rest) with
    | some (code, width) => quotedChar (Char.ofNat code) ++ quotedFrom (width - 1) rest
    | none => utf8 "\\x" ++ hexDigits false 2 b.toNat ++ quotedFrom 0 rest

def doubleQuoted (text : Text) : Text :=
  utf8 "\"" ++ quotedFrom 0 text ++ utf8 "\""

end Parlance.Text
