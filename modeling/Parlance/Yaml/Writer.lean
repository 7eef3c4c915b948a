import Parlance.Data
import Parlance.Text.Base64
import Parlance.Yaml.Cursor
import Parlance.Yaml.Meaning

namespace Parlance.Yaml

/-!
Data as a YAML document in block style, four blanks a level. Text is written
plain where it reads back as the same text, and quoted or as a block otherwise.
-/

def isWritable (character : Char) : Bool :=
  let code := character.toNat
  code == 10 || (0x20 ≤ code && code ≤ 0x7E) ||
    (0xA0 ≤ code && code ≤ 0xFFFD && code != 0xFEFF)

/-- Whether a character of the text, together with its neighbours, would be
taken for markup in a plain scalar. -/
def isMarkup (before? : Option Char) (character : Char) (after? : Option Char) : Bool :=
  let beforeGap := after?.all isBlank
  match before? with
  | none =>
    "#,[]&*!|>'\"%@`".toList.contains character || character.toNat == 0x7B ||
      character.toNat == 0x7D || ("?:-".toList.contains character && beforeGap)
  | some before =>
    (character == ':' && beforeGap) || (character == '#' && (isBlank before || isBreak before))

def hasMarkup : (before? : Option Char) → List Char → Bool
  | _, [] => false
  | before?, character :: rest =>
    isMarkup before? character rest.head? || hasMarkup (some character) rest

def hasPair (first second : Char → Bool) : List Char → Bool
  | a :: b :: rest => (first a && second b) || hasPair first second (b :: rest)
  | _ => false

structure Hindrances where
  unwritable : Bool
  tab : Bool
  broken : Bool
  blankEnd : Bool
  edge : Bool
  blankBeforeBreak : Bool
  blankAfterBreak : Bool
  markup : Bool

namespace Hindrances

def ofText (characters : List Char) : Hindrances :=
  let isSpace (character : Char) : Bool := character == ' '
  let isEdge (character : Char) : Bool := isSpace character || isBreak character
  { unwritable := characters.any fun character => character != '\t' && !isWritable character
    tab := characters.contains '\t'
    broken := characters.any isBreak
    blankEnd := characters.getLast?.any isSpace
    edge := characters.head?.any isEdge || characters.getLast?.any isEdge
    blankBeforeBreak := hasPair isSpace isBreak characters
    blankAfterBreak := hasPair isBreak isSpace characters
    markup := hasMarkup none characters || (String.ofList characters).startsWith "---" ||
      (String.ofList characters).startsWith "..." }

def allowSingle (found : Hindrances) : Bool :=
  !(found.unwritable || found.tab || found.blankBeforeBreak || found.blankAfterBreak)

def allowPlain (found : Hindrances) : Bool :=
  found.allowSingle && !(found.broken || found.edge || found.markup)

def allowBlock (found : Hindrances) : Bool :=
  !(found.unwritable || found.blankBeforeBreak || found.blankEnd)

end Hindrances

def padding (indent : Nat) : Text :=
  List.replicate indent (Text.byte ' ')

def escapeSequence (character : Char) : Text :=
  let code := character.toNat
  match code with
  | 0 => utf8 "\\0"
  | 7 => utf8 "\\a"
  | 8 => utf8 "\\b"
  | 9 => utf8 "\\t"
  | 10 => utf8 "\\n"
  | 11 => utf8 "\\v"
  | 12 => utf8 "\\f"
  | 13 => utf8 "\\r"
  | 27 => utf8 "\\e"
  | 0x22 => utf8 "\\\""
  | 0x5C => utf8 "\\\\"
  | 0x85 => utf8 "\\N"
  | 0xA0 => utf8 "\\_"
  | 0x2028 => utf8 "\\L"
  | 0x2029 => utf8 "\\P"
  | _ =>
    if code ≤ 0xFF then utf8 "\\x" ++ Text.hexDigits true 2 code
    else if code ≤ 0xFFFF then utf8 "\\u" ++ Text.hexDigits true 4 code
    else utf8 "\\U" ++ Text.hexDigits true 8 code

def isLiteral (character : Char) : Bool :=
  isWritable character && !isBreak character && character != '"' && character != '\\'

/-- After a byte order mark in front, every character is escaped. -/
def doubleQuoted (characters : List Char) : Text :=
  let marked := characters.head? == some byteOrderMark
  let body := characters.flatMap fun character =>
    if isLiteral character && !marked then Text.encode character else escapeSequence character
  utf8 "\"" ++ body ++ utf8 "\""

/-- Lines after a break are indented; quotes are doubled. -/
def singleQuotedFrom (indent : Nat) : (afterBreak : Bool) → List Char → Text
  | _, [] => []
  | afterBreak, character :: rest =>
    if isBreak character then Text.encode character ++ singleQuotedFrom indent true rest
    else
      (if afterBreak then padding indent else []) ++
        (if character = '\'' then utf8 "''" else Text.encode character) ++
        singleQuotedFrom indent false rest

def singleQuoted (indent : Nat) (characters : List Char) : Text :=
  utf8 "'" ++ singleQuotedFrom indent false characters ++ utf8 "'"

/-- The indicators of a block: its indentation if the text starts with a blank,
and how its last break is kept. -/
def blockHints (characters : List Char) : Text :=
  let indentation :=
    if characters.head?.any fun character => character == ' ' || isBreak character then utf8 "4"
    else []
  let chomping :=
    match characters.reverse with
    | last :: before =>
      if !isBreak last then utf8 "-"
      else if before.isEmpty || before.head?.any isBreak then utf8 "+"
      else []
    | [] => utf8 "-"
  indentation ++ chomping

def blockLinesFrom (indent : Nat) : (afterBreak : Bool) → List Char → Text
  | _, [] => []
  | afterBreak, character :: rest =>
    if isBreak character then Text.encode character ++ blockLinesFrom indent true rest
    else
      (if afterBreak then padding indent else []) ++ Text.encode character ++
        blockLinesFrom indent false rest

/-- The text line by line. A break in front ends the line of the indicators. -/
def blockScalar (indent : Nat) (characters : List Char) : Text :=
  let opening := if characters.head?.any isBreak then [] else [Text.newline]
  utf8 "|" ++ blockHints characters ++ opening ++ blockLinesFrom indent true characters

/-- The digits of a number in base sixty: groups between colons. -/
def isSexagesimal (text : Text) : Bool :=
  let (_, text) := Meaning.sign text
  match Text.splitOn (Text.byte ':') text with
  | first :: groups@(_ :: _) =>
    let isPart (b : UInt8) : Bool := Text.isDigit b || b == Text.byte '_'
    let isGroup (group : Text) : Bool :=
      match group with
      | [a] => Text.isDigit a
      | [a, b] => Text.byte '0' ≤ a && a ≤ Text.byte '5' && Text.isDigit b
      | _ => false
    let last := groups.getLast?.getD []
    let whole := last.takeWhile (· != Text.byte '.')
    let fraction := last.drop (whole.length + 1)
    Text.startsWith Text.isDigit first && first.all isPart &&
      groups.dropLast.all isGroup && isGroup whole && fraction.all isPart
  | _ => false

/-- Text that would be read as something else without quotes. -/
def needsQuotes (text : Text) : Bool :=
  Meaning.ofPlain text != .text || (Meaning.switch? text).isSome || isSexagesimal text

def seventies : (fuel : Nat) → Text → Text
  | 0, _ => []
  | fuel + 1, text =>
    if text.isEmpty then [] else text.take 70 ++ [Text.newline] ++ seventies fuel (text.drop 70)

def base64Lines (text : Text) : Text :=
  if text.length < 70 then text else seventies text.length text

/-- The characters in the simplest style that can hold them; `plain` says whether
they may stand without quotes. -/
def styled (indent : Nat) (plain : Bool) (characters : List Char) : Text :=
  let found := Hindrances.ofText characters
  if characters.contains '\n' then
    if found.allowBlock then blockScalar indent characters else doubleQuoted characters
  else if !plain then doubleQuoted characters
  else if found.allowPlain then Text.ofChars characters
  else if found.allowSingle then singleQuoted indent characters
  else doubleQuoted characters

/-- A scalar; lines after its first one are indented. Text that is not UTF-8 is
written in base 64. -/
def scalar (indent : Nat) (value : Text) : Text :=
  if value.isWellFormed then styled indent (!needsQuotes value) value.chars
  else utf8 "!!binary " ++ styled indent true (base64Lines (Text.toBase64 value)).chars

/-- A block scalar that ends with a break has ended its line. -/
def endLine (text : Text) : Text :=
  if text.chars.getLast?.any isBreak then text else text ++ [Text.newline]

def deeper (indent : Nat) : Nat :=
  (indent + 4) / 4 * 4

mutual

def afterKey (indent : Nat) : Data → Text
  | .null => utf8 " null\n"
  | .bool value => (if value then utf8 " true\n" else utf8 " false\n")
  | .int value => utf8 " " ++ Text.ofInt value ++ utf8 "\n"
  | .text value => utf8 " " ++ endLine (scalar (deeper indent) value)
  | .list [] => utf8 " []\n"
  | .list (item :: rest) => utf8 "\n" ++ items (deeper indent) (item :: rest)
  | .record [] => utf8 " \x7b\x7d\n"
  | .record (field :: rest) => utf8 "\n" ++ fields (deeper indent) (field :: rest)

/-- What follows the dash of an item. A collection starts on the same line, two
blanks further. -/
def afterDash (indent : Nat) : Data → Text
  | .null => utf8 " null\n"
  | .bool value => (if value then utf8 " true\n" else utf8 " false\n")
  | .int value => utf8 " " ++ Text.ofInt value ++ utf8 "\n"
  | .text value => utf8 " " ++ endLine (scalar (indent + 2) value)
  | .list [] => utf8 " []\n"
  | .list (item :: rest) => utf8 " " ++ (items (indent + 2) (item :: rest)).drop (indent + 2)
  | .record [] => utf8 " \x7b\x7d\n"
  | .record (field :: rest) => utf8 " " ++ (fields (indent + 2) (field :: rest)).drop (indent + 2)

def items (indent : Nat) : List Data → Text
  | [] => []
  | item :: rest => padding indent ++ utf8 "-" ++ afterDash indent item ++ items indent rest

def fields (indent : Nat) : List (Text × Data) → Text
  | [] => []
  | (name, value) :: rest =>
    padding indent ++ scalar (deeper indent) name ++ utf8 ":" ++ afterKey indent value ++
      fields indent rest

end

def document : Data → Text
  | .record (field :: rest) => fields 0 (field :: rest)
  | .list (item :: rest) => items 0 (item :: rest)
  | data => (afterKey 0 data).drop 1

end Parlance.Yaml
