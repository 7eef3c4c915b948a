import Parlance.Text.Radix
import Parlance.Word

namespace Parlance.Toml

/-!
TOML documents whose values are integers, booleans, strings and inline tables.
A document with any other kind of value is not read: no setting has one.
-/

/-- A value; the entries of a table are named by dotted paths. -/
inductive Value where
  | int (value : Int)
  | bool (value : Bool)
  | text (value : Text)
  | table (entries : List (List Text × Value))

inductive Item where
  | header (path : List Text)
  | entry (path : List Text) (value : Value)

def isSpace (b : UInt8) : Bool :=
  b == Text.byte ' ' || b == Text.byte '\t'

def skipSpaces (text : Text) : Text :=
  text.dropWhile isSpace

/-- Bytes that stand for themselves in strings and comments: no control
character other than the tab. -/
def isVerbatim (b : UInt8) : Bool :=
  b == Text.byte '\t' || (0x20 ≤ b && b != 0x7F)

def lineBreak? : Text → Option Text
  | 10 :: rest => some rest
  | 13 :: 10 :: rest => some rest
  | _ => none

def skipComment : Text → Option Text
  | [] => some []
  | b :: rest =>
    if (lineBreak? (b :: rest)).isSome then some (b :: rest)
    else if isVerbatim b then skipComment rest
    else none

def endOfLine (text : Text) : Option Text :=
  match skipSpaces text with
  | [] => some []
  | b :: rest =>
    if b = Text.byte '#' then do
      match ← skipComment rest with
      | [] => some []
      | rest => lineBreak? rest
    else lineBreak? (b :: rest)

def escape? : Text → Option (Text × Text)
  | [] => none
  | b :: rest =>
    let one (value : UInt8) : Option (Text × Text) := some ([value], rest)
    let coded (count : Nat) : Option (Text × Text) :=
      (Text.charOfHex? count rest).map fun (character, rest) => (Text.encode character, rest)
    if b = Text.byte '"' || b = Text.byte '\\' then one b
    else if b = Text.byte 'b' then one 8
    else if b = Text.byte 't' then one 9
    else if b = Text.byte 'n' then one 10
    else if b = Text.byte 'f' then one 12
    else if b = Text.byte 'r' then one 13
    else if b = Text.byte 'e' then one 27
    else if b = Text.byte 'u' then coded 4
    else if b = Text.byte 'U' then coded 8
    else none

def literal? : Text → Option (Text × Text)
  | [] => none
  | b :: rest =>
    if b = Text.quote then some ([], rest)
    else if isVerbatim b then (literal? rest).map fun (body, rest) => (b :: body, rest)
    else none

/-- The body of a string in double quotes, after the opening one. Every step
takes at least one byte, so `fuel` is the number of bytes left. -/
def basicFrom? : (fuel : Nat) → Text → Option (Text × Text)
  | 0, _ => none
  | _, [] => none
  | fuel + 1, b :: rest =>
    if b = Text.byte '"' then some ([], rest)
    else if b = Text.byte '\\' then do
      let (bytes, rest) ← escape? rest
      let (body, rest) ← basicFrom? fuel rest
      some (bytes ++ body, rest)
    else if isVerbatim b then (basicFrom? fuel rest).map fun (body, rest) => (b :: body, rest)
    else none

def basic? (text : Text) : Option (Text × Text) :=
  basicFrom? text.length text

def skipLines : (fuel : Nat) → Text → Text
  | 0, text => text
  | fuel + 1, text =>
    match lineBreak? text with
    | some rest => skipLines fuel rest
    | none =>
      match text with
      | b :: rest => if isSpace b then skipLines fuel rest else text
      | [] => []

/-- A string over several lines may end in up to two quotes of its own; more
than that is malformed. -/
def closing? (mark : UInt8) (text : Text) : Option (Option (Text × Text)) :=
  let count := (text.takeWhile (· == mark)).length
  if count < 3 then some none
  else if 5 < count then none
  else some (some (List.replicate (count - 3) mark, text.drop count))

/-- The body of a string over several lines, after the opening quotes. In a
string of double quotes a backslash starts an escape, or joins the line with
the next text. -/
def multilineFrom? (mark : UInt8) : (fuel : Nat) → Text → Option (Text × Text)
  | 0, _ => none
  | _, [] => none
  | fuel + 1, b :: rest => do
    match ← closing? mark (b :: rest) with
    | some ending => some ending
    | none =>
      if b = Text.byte '\\' && mark = Text.byte '"' then
        match lineBreak? (skipSpaces rest) with
        | some following => multilineFrom? mark fuel (skipLines following.length following)
        | none =>
          let (bytes, rest) ← escape? rest
          let (body, rest) ← multilineFrom? mark fuel rest
          some (bytes ++ body, rest)
      else if isVerbatim b || (lineBreak? (b :: rest)).isSome then
        (multilineFrom? mark fuel rest).map fun (body, rest) => (b :: body, rest)
      else none

/-- A line break right after the opening quotes is not part of the string. -/
def multiline? (mark : UInt8) (text : Text) : Option (Text × Text) :=
  let text := (lineBreak? text).getD text
  multilineFrom? mark (text.length + 1) text

def isKeyByte (b : UInt8) : Bool :=
  Text.isWord b || b == Text.byte '-'

def keyPart? : Text → Option (Text × Text)
  | [] => none
  | b :: rest =>
    if b = Text.quote then literal? rest
    else if b = Text.byte '"' then basic? rest
    else if isKeyByte b then
      some ((b :: rest).takeWhile isKeyByte, (b :: rest).dropWhile isKeyByte)
    else none

def keyFrom? : (fuel : Nat) → Text → Option (List Text × Text)
  | 0, _ => none
  | fuel + 1, text => do
    let (part, rest) ← keyPart? text
    match skipSpaces rest with
    | b :: following =>
      if b = Text.byte '.' then
        let (parts, rest) ← keyFrom? fuel (skipSpaces following)
        some (part :: parts, rest)
      else some ([part], b :: following)
    | [] => some ([part], [])

def key? (text : Text) : Option (List Text × Text) :=
  keyFrom? (text.length + 1) text

/-- Digits with single underscores between them. -/
def digits? (text : Text) : Option Text :=
  let groups := Text.splitOn (Text.byte '_') text
  if groups.all fun group => !group.isEmpty then some groups.flatten else none

def inRange? (value : Int) : Option Int :=
  if Word.isSigned value then some value else none

def decimal? (text : Text) : Option Int := do
  let (negative, text) :=
    match text with
    | b :: rest =>
      if b = Text.byte '-' then (true, rest)
      else if b = Text.byte '+' then (false, rest)
      else (false, text)
    | [] => (false, [])
  let digits ← digits? text
  if 1 < digits.length && Text.startsWith (· == Text.byte '0') digits then none
  else
    let value ← Text.toNat? digits
    inRange? (if negative then -value else value)

def base? (b : UInt8) : Option Nat :=
  if b = Text.byte 'x' then some 16
  else if b = Text.byte 'o' then some 8
  else if b = Text.byte 'b' then some 2
  else none

def isNumberByte (b : UInt8) : Bool :=
  Text.isDigit b || b == Text.byte '_' || b == Text.byte '+' || b == Text.byte '-'

def isRadixByte (base : Nat) (b : UInt8) : Bool :=
  b == Text.byte '_' || (Text.digitValue? b).any (· < base)

def plainInteger? (text : Text) : Option (Int × Text) := do
  some (← decimal? (text.takeWhile isNumberByte), text.dropWhile isNumberByte)

def integer? (text : Text) : Option (Int × Text) :=
  match text with
  | 48 :: mark :: digits =>
    match base? mark with
    | some base => do
      let value ← Text.ofRadix? base (← digits? (digits.takeWhile (isRadixByte base)))
      let value ← inRange? value
      some (value, digits.dropWhile (isRadixByte base))
    | none => plainInteger? text
  | _ => plainInteger? text

def string? : Text → Option (Text × Text)
  | 34 :: 34 :: 34 :: rest => multiline? (Text.byte '"') rest
  | 39 :: 39 :: 39 :: rest => multiline? Text.quote rest
  | 34 :: rest => basic? rest
  | 39 :: rest => literal? rest
  | _ => none

mutual

def value? : (fuel : Nat) → Text → Option (Value × Text)
  | 0, _ => none
  | fuel + 1, text =>
    if Text.hasPrefix (utf8 "true") text then some (.bool true, text.drop 4)
    else if Text.hasPrefix (utf8 "false") text then some (.bool false, text.drop 5)
    else if Text.startsWith (fun b => b == Text.byte '"' || b == Text.quote) text then
      (string? text).map fun (value, rest) => (.text value, rest)
    else if Text.startsWith (· == 0x7B) text then do
      match skipSpaces (text.drop 1) with
      | 0x7D :: rest => some (.table [], rest)
      | rest =>
        let (entries, rest) ← entries? fuel rest
        some (.table entries, rest)
    else (integer? text).map fun (value, rest) => (.int value, rest)

def entries? : (fuel : Nat) → Text → Option (List (List Text × Value) × Text)
  | 0, _ => none
  | fuel + 1, text => do
    let (path, rest) ← key? text
    match rest with
    | 61 :: rest =>
      let (value, rest) ← value? fuel (skipSpaces rest)
      match skipSpaces rest with
      | 0x7D :: rest => some ([(path, value)], rest)
      | 44 :: rest =>
        let (entries, rest) ← entries? fuel (skipSpaces rest)
        some ((path, value) :: entries, rest)
      | _ => none
    | _ => none

end

def item? (text : Text) : Option (Item × Text) := do
  match text with
  | 91 :: rest =>
    let (path, rest) ← key? (skipSpaces rest)
    match rest with
    | 93 :: rest => some (.header path, rest)
    | _ => none
  | _ =>
    let (path, rest) ← key? text
    match rest with
    | 61 :: rest =>
      let (value, rest) ← value? (rest.length + 1) (skipSpaces rest)
      some (.entry path value, rest)
    | _ => none

def itemsFrom? : (fuel : Nat) → Text → Option (List Item)
  | 0, _ => some []
  | fuel + 1, text =>
    match skipSpaces text with
    | [] => some []
    | b :: rest =>
      if b = Text.byte '#' || (lineBreak? (b :: rest)).isSome then do
        itemsFrom? fuel (← endOfLine (b :: rest))
      else do
        let (item, rest) ← item? (b :: rest)
        some (item :: (← itemsFrom? fuel (← endOfLine rest)))

structure Declaration where
  path : List Text
  isValue : Bool
  /-- No line may add to an explicit table, other than those right below its header. -/
  explicit : Bool
  /-- The table was made by a dotted key below the current header. -/
  dotted : Bool

namespace Declaration

def declared? (declarations : List Declaration) (path : List Text) : Option Declaration :=
  declarations.find? (·.path == path)

def replace (declarations : List Declaration) (declaration : Declaration) : List Declaration :=
  declaration :: declarations.filter (·.path != declaration.path)

/-- Tables that dotted keys have made are closed by the next header. -/
def close (current : List Text) (declarations : List Declaration) : List Declaration :=
  declarations.map fun declaration =>
    if current.isPrefixOf declaration.path && declaration.dotted then
      { declaration with explicit := true, dotted := false }
    else declaration

/-- Goes down the names of a header from `parent`. -/
def header? (parent : List Text) : List Text → List Declaration → Option (List Declaration)
  | [], _ => none
  | [name], declarations =>
    let path := parent ++ [name]
    match declared? declarations path with
    | none => some (replace declarations ⟨path, false, true, false⟩)
    | some declaration =>
      if declaration.isValue || declaration.explicit then none
      else some (replace declarations { declaration with explicit := true })
  | name :: names, declarations =>
    let path := parent ++ [name]
    match declared? declarations path with
    | none => header? path names (replace declarations ⟨path, false, false, false⟩)
    | some declaration => if declaration.isValue then none else header? path names declarations

def entry? (parent : List Text) : List Text → List Declaration → Option (List Declaration)
  | [], _ => none
  | [name], declarations =>
    let path := parent ++ [name]
    match declared? declarations path with
    | none => some (replace declarations ⟨path, true, false, true⟩)
    | some _ => none
  | name :: names, declarations =>
    let path := parent ++ [name]
    match declared? declarations path with
    | none => entry? path names (replace declarations ⟨path, false, false, true⟩)
    | some declaration =>
      if declaration.isValue || declaration.explicit then none
      else entry? path names declarations

end Declaration

mutual

/-- No name of an inline table is given twice, at any depth. -/
def Value.isConsistent : Value → Bool
  | .table entries => entriesConsistent [] entries
  | _ => true

def entriesConsistent (declarations : List Declaration) : List (List Text × Value) → Bool
  | [] => true
  | (path, value) :: entries =>
    match Declaration.entry? [] path declarations with
    | some declarations => value.isConsistent && entriesConsistent declarations entries
    | none => false

end

/-- No table and no value is defined twice below the header `current`. -/
def isConsistentFrom (current : List Text) (declarations : List Declaration) : List Item → Bool
  | [] => true
  | .header path :: items =>
    match Declaration.header? [] path (Declaration.close current declarations) with
    | some declarations => isConsistentFrom path declarations items
    | none => false
  | .entry path value :: items =>
    match Declaration.entry? current path declarations with
    | some declarations => value.isConsistent && isConsistentFrom current declarations items
    | none => false

/-- The items of a document that is well formed and defines nothing twice. -/
def read? (text : Text) : Option (List Item) :=
  if text.isWellFormed then
    (itemsFrom? (text.length + 1) text).bind fun items =>
      if isConsistentFrom [] [] items then some items else none
  else none

def escaped (b : UInt8) : Text :=
  if b = Text.byte '\\' then utf8 "\\\\"
  else if b = Text.byte '"' then utf8 "\\\""
  else if b = 8 then utf8 "\\b"
  else if b = 9 then utf8 "\\t"
  else if b = 10 then utf8 "\\n"
  else if b = 12 then utf8 "\\f"
  else if b = 13 then utf8 "\\r"
  else if isVerbatim b then [b]
  else utf8 "\\u00" ++ Text.hexDigits true 2 b.toNat

/-- A string of one line: in single quotes if every byte can stand there as it
is, otherwise in double quotes with escapes. -/
def string (text : Text) : Text :=
  if text.all fun b => isVerbatim b && b != Text.quote then Text.quoted text
  else utf8 "\"" ++ text.flatMap escaped ++ utf8 "\""

end Parlance.Toml
