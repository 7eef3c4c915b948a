import Parlance.Text.Unicode

namespace Parlance.Text

/-! Blanks around a text, and letters regardless of case. -/

/-- The characters with the Unicode property of white space. -/
def isWhiteSpace (character : Char) : Bool :=
  let code := character.toNat
  (9 ≤ code && code ≤ 13) || code == 0x20 || code == 0x85 || code == 0xA0 || code == 0x1680 ||
    (0x2000 ≤ code && code ≤ 0x200A) || code == 0x2028 || code == 0x2029 || code == 0x202F ||
    code == 0x205F || code == 0x3000

/-- Drops white space in front; `pending` bytes still belong to a character
that is dropped. -/
def trimStartFrom : Nat → Text → Text
  | _, [] => []
  | pending + 1, _ :: rest => trimStartFrom pending rest
  | 0, b :: rest =>
    match sequence? (b :: rest) with
    | some (code, width) =>
      if isWhiteSpace (Char.ofNat code) then trimStartFrom (width - 1) rest else b :: rest
    | none => b :: rest

def trimStart (text : Text) : Text :=
  trimStartFrom 0 text

def isWhite (text : Text) : Bool :=
  (trimStart text).isEmpty

/-- Drops white space at the end; `pending` bytes still belong to a character
that is kept. -/
def trimEndFrom : Nat → Text → Text
  | _, [] => []
  | pending + 1, b :: rest => b :: trimEndFrom pending rest
  | 0, b :: rest => if isWhite (b :: rest) then [] else b :: trimEndFrom (charWidth (b :: rest) - 1) rest

def trim (text : Text) : Text :=
  trimEndFrom 0 (trimStart text)

/-- A letter in lower case, as far as it has one among the ASCII letters. Other
letters are left alone: they are never compared with anything else. -/
def lowerChar (character : Char) : Char :=
  if character.toNat = 0x130 then 'i'
  else if character.toNat = 0x212A then 'k'
  else character.toLower

def lower (text : Text) : Text :=
  text.chars.flatMap fun character => encode (lowerChar character)

end Parlance.Text
