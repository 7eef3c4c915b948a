import Parlance.Text

namespace Parlance.Text

/-!
Characters of a byte string. A well-formed UTF-8 sequence is one character;
every byte that starts none is one character by itself and reads as U+FFFD.
-/

def isContinuation (b : UInt8) : Bool :=
  0x80 ≤ b && b ≤ 0xBF

/-- Code point and width of the well-formed sequence at the front. Overlong
forms, surrogates and code points above U+10FFFF are malformed. -/
def sequence? : Text → Option (Nat × Nat)
  | [] => none
  | a :: rest =>
    if a < 0x80 then
      some (a.toNat, 1)
    else if 0xC2 ≤ a && a ≤ 0xDF then
      match rest with
      | b :: _ =>
        if isContinuation b then some (a.toNat % 32 * 64 + b.toNat % 64, 2) else none
      | _ => none
    else if 0xE0 ≤ a && a ≤ 0xEF then
      match rest with
      | b :: c :: _ =>
        if isContinuation b && isContinuation c && (a != 0xE0 || 0xA0 ≤ b) && (a != 0xED || b ≤ 0x9F) then
          some (a.toNat % 16 * 4096 + b.toNat % 64 * 64 + c.toNat % 64, 3)
        else none
      | _ => none
    else if 0xF0 ≤ a && a ≤ 0xF4 then
      match rest with
      | b :: c :: d :: _ =>
        if isContinuation b && isContinuation c && isContinuation d &&
            (a != 0xF0 || 0x90 ≤ b) && (a != 0xF4 || b ≤ 0x8F) then
          some (a.toNat % 8 * 262144 + b.toNat % 64 * 4096 + c.toNat % 64 * 64 + d.toNat % 64, 4)
        else none
      | _ => none
    else none

def charWidth (text : Text) : Nat :=
  match sequence? text with
  | some (_, width) => width
  | none => 1

def firstChar (text : Text) : Text :=
  text.take (charWidth text)

def encode (character : Char) : Text :=
  String.utf8EncodeChar character

/-- U+FFFD, which stands for a malformed byte. -/
def replacement : Char := Char.ofNat 0xFFFD

/-- Walks the characters; `pending` bytes still belong to the last one. -/
def charsFrom : Nat → Text → List Char
  | _, [] => []
  | pending + 1, _ :: rest => charsFrom pending rest
  | 0, b :: rest =>
    match sequence? (b :: rest) with
    | some (code, width) => Char.ofNat code :: charsFrom (width - 1) rest
    | none => replacement :: charsFrom 0 rest

def chars (text : Text) : List Char :=
  charsFrom 0 text

def ofChars (characters : List Char) : Text :=
  characters.flatMap encode

def isWellFormedFrom : Nat → Text → Bool
  | _, [] => true
  | pending + 1, _ :: rest => isWellFormedFrom pending rest
  | 0, b :: rest =>
    match sequence? (b :: rest) with
    | some (_, width) => isWellFormedFrom (width - 1) rest
    | none => false

def isWellFormed (text : Text) : Bool :=
  isWellFormedFrom 0 text

end Parlance.Text
