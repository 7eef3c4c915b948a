import Parlance.Text.Unicode

namespace Parlance.Yaml

/-!
The characters of a stream. A mark in front tells how they are encoded. The
stream is decoded block by block and only as far as it is looked at, so that a
fault far behind the first document is never seen.
-/

inductive Encoding where
  | utf8
  /-- Units of two bytes, the low one first or last. -/
  | utf16 (lowFirst : Bool)
  deriving DecidableEq

def byteOrderMark : Char := Char.ofNat 0xFEFF

def isAllowed (character : Char) : Bool :=
  let code := character.toNat
  code == 9 || code == 10 || code == 13 || (0x20 ≤ code && code ≤ 0x7E) || code == 0x85 ||
    (0xA0 ≤ code && code ≤ 0xFFFD) || 0x10000 ≤ code

namespace Encoding

inductive Front where
  | character (value : Char) (width : Nat)
  /-- The first bytes of a character, or none at all. -/
  | incomplete
  | malformed

def Front.ofCode (code width : Nat) : Front :=
  if isAllowed (Char.ofNat code) then .character (Char.ofNat code) width else .malformed

def utf8Width? (lead : UInt8) : Option Nat :=
  if lead < 0x80 then some 1
  else if lead < 0xC0 then none
  else if lead < 0xE0 then some 2
  else if lead < 0xF0 then some 3
  else if lead < 0xF8 then some 4
  else none

def utf8Front : List UInt8 → Front
  | [] => .incomplete
  | lead :: rest =>
    match utf8Width? lead with
    | none => .malformed
    | some width =>
      if (rest.take (width - 1)).length < width - 1 then .incomplete
      else
        match Text.sequence? (lead :: rest) with
        | some (code, width) => .ofCode code width
        | none => .malformed

def unit (lowFirst : Bool) (a b : UInt8) : Nat :=
  if lowFirst then a.toNat + 256 * b.toNat else 256 * a.toNat + b.toNat

/-- A unit is a character by itself unless it is half of a pair. -/
def utf16Front (lowFirst : Bool) : List UInt8 → Front
  | a :: b :: rest =>
    let high := unit lowFirst a b
    if 0xDC00 ≤ high && high ≤ 0xDFFF then .malformed
    else if 0xD800 ≤ high && high ≤ 0xDBFF then
      match rest with
      | c :: d :: _ =>
        let low := unit lowFirst c d
        if 0xDC00 ≤ low && low ≤ 0xDFFF then
          .ofCode (0x10000 + (high - 0xD800) * 1024 + (low - 0xDC00)) 4
        else .malformed
      | _ => .incomplete
    else .ofCode high 2
  | _ => .incomplete

def front : Encoding → List UInt8 → Front
  | utf8, bytes => utf8Front bytes
  | utf16 lowFirst, bytes => utf16Front lowFirst bytes

/-- The characters of a block, and the bytes at its end that are not yet one. -/
def decode? (encoding : Encoding) : (fuel : Nat) → List UInt8 → Option (List Char × List UInt8)
  | 0, bytes => some ([], bytes)
  | fuel + 1, bytes =>
    match encoding.front bytes with
    | .incomplete => some ([], bytes)
    | .malformed => none
    | .character value width =>
      (decode? encoding fuel (bytes.drop width)).map fun (values, rest) => (value :: values, rest)

/-- The encoding of a stream and the width of the mark that tells it. -/
def ofText : Text → Encoding × Nat
  | 0xFF :: 0xFE :: _ => (.utf16 true, 2)
  | 0xFE :: 0xFF :: _ => (.utf16 false, 2)
  | 0xEF :: 0xBB :: 0xBF :: _ => (.utf8, 3)
  | _ => (.utf8, 0)

end Encoding

/-- Blocks of characters up to the end, or up to the first fault. -/
structure Stream where
  blocks : List (List Char)
  faulty : Bool
  deriving DecidableEq

namespace Stream

def blockSize : Nat := 512

/-- Decodes `room` more bytes together with those kept from the block before. -/
def ofBytes (encoding : Encoding) : (fuel : Nat) → (kept : List UInt8) → (room : Nat) →
    List UInt8 → Stream
  | 0, _, _, _ => ⟨[], true⟩
  | fuel + 1, kept, room, bytes =>
    if bytes.isEmpty then ⟨[], !kept.isEmpty⟩
    else
      match encoding.decode? blockSize (kept ++ bytes.take room) with
      | none => ⟨[], true⟩
      | some (block, kept) =>
        let rest := ofBytes encoding fuel kept (blockSize - kept.length) (bytes.drop room)
        { rest with blocks := block :: rest.blocks }

def ofText (text : Text) : Stream :=
  let (encoding, width) := Encoding.ofText text
  ofBytes encoding (text.length + 1) [] (blockSize - width) (text.drop width)

def size (stream : Stream) : Nat :=
  stream.blocks.foldl (fun total block => total + block.length) 0

end Stream

end Parlance.Yaml
