import Parlance.Yaml.Scalar

namespace Parlance.Yaml

/-!
Tokens of a YAML stream. Indentation is made explicit by start and end marks of
blocks. Whether a token begins a mapping key is known only once a colon follows
it on the same line, so the place of a possible key is remembered and its marks
are put in there later.
-/

inductive Token where
  | version (major minor : Nat)
  | tagHandle (handle expansion : Text)
  | documentStart
  | documentEnd
  | blockSequenceStart
  | blockMappingStart
  | blockEnd
  | flowSequenceStart
  | flowSequenceEnd
  | flowMappingStart
  | flowMappingEnd
  | blockEntry
  | flowEntry
  | key
  | value
  | alias (name : Text)
  | anchor (name : Text)
  | tag (handle suffix : Text)
  | scalar (plain : Bool) (text : Text)
  | streamEnd
  /-- No token can be read from here on. -/
  | malformed
  deriving DecidableEq

namespace Token

def isTagChar (character : Char) : Bool :=
  isNameChar character || (";/?:@&=+$,.!~*'()[]".toList.contains character)

def tagByte : Scan UInt8 := do
  Scan.need 3
  match (← get).ahead with
  | '%' :: a :: b :: _ =>
    let digits := Text.ofChars [a, b]
    match Text.ofRadix? 16 digits with
    | some code =>
      if digits.length ≠ 2 then failure
      Scan.skipMany 3
      return code.toUInt8
    | none => failure
  | _ => failure

def tagBytes : (count : Nat) → Scan Text
  | 0 => return []
  | count + 1 => do
    let b ← tagByte
    if Text.isContinuation b then return b :: (← tagBytes count) else failure

def tagEscape : Scan Text := do
  let lead ← tagByte
  match Encoding.utf8Width? lead with
  | some width => return lead :: (← tagBytes (width - 1))
  | none => failure

def tagCharsFrom : (fuel : Nat) → Scan Text
  | 0 => failure
  | fuel + 1 => do
    Scan.need 1
    match (← get).ahead with
    | '%' :: _ =>
      let bytes ← tagEscape
      return bytes ++ (← tagCharsFrom fuel)
    | character :: _ =>
      if isTagChar character then
        Scan.skip
        return Text.encode character ++ (← tagCharsFrom fuel)
      else return []
    | [] => return []

def tagChars : Scan Text := do
  tagCharsFrom (← get).fuel

/-- An exclamation mark with a name, and another one if it is a handle. -/
def tagHandleOrName : Scan Text := do
  Scan.need 1
  if (← get).startsWith (· == '!') then
    Scan.skip
    let name ← Scan.takeWhile isNameChar
    let closed := (← get).startsWith (· == '!')
    if closed then Scan.skip
    return Text.ofChars ('!' :: name ++ if closed then ['!'] else [])
  else failure

def isHandle (text : Text) : Bool :=
  1 < text.length && text.getLast? == some (Text.byte '!')

def tagParts : Scan (Text × Text) := do
  Scan.need 2
  if (← get).ahead[1]? = some '<' then
    Scan.skipMany 2
    let tag ← tagChars
    if tag.isEmpty || !(← get).startsWith (· == '>') then failure
    Scan.skip
    return ([], tag)
  else
    let front ← tagHandleOrName
    let suffix ← tagChars
    if isHandle front then
      if suffix.isEmpty then failure else return (front, suffix)
    else
      let suffix := front.drop 1 ++ suffix
      return if suffix.isEmpty then ([], utf8 "!") else (utf8 "!", suffix)

def tagToken : Scan Token := do
  let (handle, suffix) ← tagParts
  Scan.need 1
  if (← get).atGap then return .tag handle suffix else failure

def nameToken (token : Text → Token) : Scan Token := do
  Scan.skip
  let name ← Scan.takeWhile isNameChar
  let cursor ← get
  if name.isEmpty then failure
  else if cursor.atGap || cursor.startsWith fun character =>
      "?:,]%@`".toList.contains character || character.toNat == 0x7D then
    return token (Text.ofChars name)
  else failure

def versionNumber : Scan Nat := do
  let digits ← Scan.takeWhile Char.isDigit
  if digits.length = 1 || digits.length = 2 then return Text.digitsValue (Text.ofChars digits)
  else failure

def versionToken : Scan Token := do
  Scan.skipBlanks
  let major ← versionNumber
  if (← get).startsWith (· == '.') then
    Scan.skip
    return .version major (← versionNumber)
  else failure

def handleToken : Scan Token := do
  Scan.skipBlanks
  let handle ← tagHandleOrName
  Scan.need 1
  if !(handle == utf8 "!" || isHandle handle) || !(← get).atBlank then failure
  Scan.skipBlanks
  let expansion ← tagChars
  if expansion.isEmpty || !(← get).atGap then failure
  return .tagHandle handle expansion

def directive : Scan Token := do
  Scan.skip
  let name ← Scan.takeWhile isNameChar
  if !(← get).atGap then failure
  let token ←
    if name = ['Y', 'A', 'M', 'L'] then versionToken
    else if name = ['T', 'A', 'G'] then handleToken
    else failure
  Scan.skipBlanks
  if (← get).startsWith (· == '#') then Scan.skipLine
  let cursor ← get
  if cursor.atBreak then
    discard Scan.lineBreak
    return token
  else if cursor.atEnd then return token
  else failure

end Token

namespace Layout

/-- A place where a key may have started. In a block, a token in the column of
the block has to be one. -/
structure Key where
  required : Bool
  /-- How many tokens come before it. -/
  number : Nat
  index : Nat
  line : Nat
  column : Nat

structure State where
  cursor : Cursor
  indent : Int := -1
  outer : List Int := []
  keyAllowed : Bool := true
  /-- The possible key of each open bracket, and of the block around them. -/
  keys : List (Option Key) := [none]
  tokens : Array Token := #[]

namespace State

def maxDepth : Nat := 10000

def inFlow (state : State) : Bool :=
  1 < state.keys.length

def push (state : State) (token : Token) : State :=
  { state with tokens := state.tokens.push token }

/-- Ends blocks that are indented further than `column`, with those around them. -/
def unrollFrom (column : Int) : (outer : List Int) → State → State
  | [], state => state
  | indent :: outer, state =>
    if column < state.indent then
      unrollFrom column outer { state with indent, outer, tokens := state.tokens.push .blockEnd }
    else state

def unroll (state : State) (column : Int) : State :=
  if state.inFlow then state else unrollFrom column state.outer state

/-- Starts a block at `column` if it is indented further; its mark goes before
the token with the given number. -/
def roll? (state : State) (column : Nat) (number : Nat) (start : Token) : Option State :=
  if state.inFlow || (column : Int) ≤ state.indent then some state
  else if maxDepth ≤ state.outer.length then none
  else
    some { state with
      indent := column
      outer := state.indent :: state.outer
      tokens := state.tokens.insertIdxIfInBounds number start }

/-- A required key cannot be given up. -/
def dropKey? (state : State) : Option State :=
  match state.keys with
  | some key :: keys => if key.required then none else some { state with keys := none :: keys }
  | _ => some state

def saveKey? (state : State) : Option State :=
  if state.keyAllowed then do
    let state ← state.dropKey?
    let cursor := state.cursor
    let key : Key :=
      ⟨!state.inFlow && state.indent == cursor.column, state.tokens.size, cursor.index, cursor.line,
        cursor.column⟩
    some { state with keys := some key :: state.keys.drop 1 }
  else some state

/-- The current possible key, unless it is out of reach: keys stay on one line
and within 1024 characters. The outer `none` is a required key out of reach. -/
def validKey? (state : State) : Option (Option Key) :=
  match state.keys with
  | some key :: _ =>
    if key.line < state.cursor.line || key.index + 1024 < state.cursor.index then
      if key.required then none else some none
    else some (some key)
  | _ => some none

def scan? {α : Type} (state : State) (scan : Scan α) : Option (α × State) :=
  (scan.run state.cursor).map fun (result, cursor) => (result, { state with cursor })

def take? (state : State) (scan : Scan Token) : Option State :=
  (state.scan? scan).map fun (token, state) => state.push token

def takeMark? (state : State) (count : Nat) (token : Token) : Option State :=
  state.take? do
    Scan.skipMany count
    return token

/-- Goes over blanks, comments and line breaks. A tab does not count as a blank
where a key may start. A byte order mark may start a line; the line goes without
its first character while the mark counts as the next one decoded. -/
def skipGap? : (fuel : Nat) → State → Option State
  | 0, _ => none
  | fuel + 1, state => do
    let isFiller (character : Char) : Bool :=
      character == ' ' || (character == '\t' && (state.inFlow || !state.keyAllowed))
    let (broken, state) ← state.scan? do
      Scan.need 1
      let cursor ← get
      if cursor.column = 0 && cursor.marked then Scan.skip
      discard (Scan.takeWhile isFiller)
      if (← get).startsWith (· == '#') then comments
      if (← get).atBreak then
        discard Scan.lineBreak
        return true
      else return false
    if broken then skipGap? fuel { state with keyAllowed := state.keyAllowed || !state.inFlow }
    else some state

def keyed? (state : State) (scan : Scan Token) : Option State := do
  ({ ← state.saveKey? with keyAllowed := false }).take? scan

def flowStart? (state : State) (token : Token) : Option State := do
  let state ← state.saveKey?
  if maxDepth < state.keys.length then none
  else ({ state with keys := none :: state.keys, keyAllowed := true }).takeMark? 1 token

def flowEnd? (state : State) (token : Token) : Option State := do
  let state ← state.dropKey?
  let keys := if state.inFlow then state.keys.drop 1 else state.keys
  ({ state with keys, keyAllowed := false }).takeMark? 1 token

def flowEntry? (state : State) : Option State := do
  ({ ← state.dropKey? with keyAllowed := true }).takeMark? 1 .flowEntry

/-- An entry of a block sequence, or an explicit key of a block mapping. -/
def blockMark? (state : State) (start mark : Token) (keyAllowed : Bool) : Option State := do
  if !state.inFlow && !state.keyAllowed then none
  else
    let state ← state.roll? state.cursor.column state.tokens.size start
    ({ ← state.dropKey? with keyAllowed }).takeMark? 1 mark

def value? (state : State) : Option State := do
  match ← state.validKey? with
  | some key =>
    let tokens := state.tokens.insertIdxIfInBounds key.number .key
    let state ← ({ state with tokens }).roll? key.column key.number .blockMappingStart
    ({ state with keys := none :: state.keys.drop 1, keyAllowed := false }).takeMark? 1 .value
  | none =>
    if !state.inFlow && !state.keyAllowed then none
    else
      let state ← state.roll? state.cursor.column state.tokens.size .blockMappingStart
      ({ state with keyAllowed := !state.inFlow }).takeMark? 1 .value

def boundary? (state : State) (scan : Scan Token) : Option State := do
  ({ ← (state.unroll (-1)).dropKey? with keyAllowed := false }).take? scan

def documentMark? (state : State) (token : Token) : Option State :=
  state.boundary? do
    Scan.skipMany 3
    return token

def quotedToken (single : Bool) : Scan Token := do
  return .scalar false (Text.ofChars (← quoted single))

def plainScalar? (state : State) : Option State := do
  let state := { ← state.saveKey? with keyAllowed := false }
  let ((text, broken), state) ← state.scan? (plain state.inFlow (state.indent + 1))
  some { state.push (.scalar true (Text.ofChars text)) with keyAllowed := broken }

def blockScalar? (literal : Bool) (state : State) : Option State := do
  ({ ← state.dropKey? with keyAllowed := true }).take? do
    return .scalar false (Text.ofChars (← block literal state.indent))

/-- Characters that no plain scalar starts with, other than the three that may
when a gap does not follow. -/
def isIndicator (character : Char) : Bool :=
  ",[]#&*!|>'\"%@`".toList.contains character ||
    character.toNat == 0x7B || character.toNat == 0x7D

def contentToken? (state : State) (character : Char) (rest : List Char) : Option State :=
  if character == '[' then state.flowStart? .flowSequenceStart
  else if character.toNat == 0x7B then state.flowStart? .flowMappingStart
  else if character == ']' then state.flowEnd? .flowSequenceEnd
  else if character.toNat == 0x7D then state.flowEnd? .flowMappingEnd
  else if character == ',' then state.flowEntry?
  else if character == '-' && isGap rest then
    state.blockMark? .blockSequenceStart .blockEntry true
  else if character == '?' && (state.inFlow || isGap rest) then
    state.blockMark? .blockMappingStart .key (!state.inFlow)
  else if character == ':' && (state.inFlow || isGap rest) then state.value?
  else if character == '*' then state.keyed? (Token.nameToken .alias)
  else if character == '&' then state.keyed? (Token.nameToken .anchor)
  else if character == '!' then state.keyed? Token.tagToken
  else if character == '|' && !state.inFlow then state.blockScalar? true
  else if character == '>' && !state.inFlow then state.blockScalar? false
  else if character == '\'' then state.keyed? (quotedToken true)
  else if character == '"' then state.keyed? (quotedToken false)
  else if !isIndicator character && !isGap (character :: rest) then state.plainScalar?
  else none

/-- A comment may stand behind every token but the mark of an entry. -/
def lineComment? (state : State) : Option State :=
  if state.tokens.back? = some .blockEntry then some state
  else (state.scan? lineComment).map (·.2)

def token? (state : State) (character : Char) (rest : List Char) : Option State := do
  if state.cursor.column = 0 && character == '%' then state.boundary? Token.directive
  else if state.cursor.atDocumentMark then
    state.documentMark? (if character == '-' then .documentStart else .documentEnd)
  else (← state.contentToken? character rest).lineComment?

def next? (state : State) : Option (State × Bool) := do
  let state ← state.skipGap? state.cursor.fuel
  let state := state.unroll state.cursor.column
  let (_, state) ← state.scan? (Scan.need 4)
  match state.cursor.ahead with
  | [] => some ((← (state.unroll (-1)).dropKey?).push .streamEnd, true)
  | character :: rest => some (← state.token? character rest, false)

def scan : (fuel : Nat) → State → Array Token
  | 0, state => state.tokens.push .malformed
  | fuel + 1, state =>
    match state.next? with
    | none => state.tokens.push .malformed
    | some (state, true) => state.tokens
    | some (state, false) => scan fuel state

end State

end Layout

/-- The tokens of a stream. They end with the end of the stream, or where it is
malformed. -/
def Token.ofText (text : Text) : List Token :=
  let cursor := Cursor.ofText text
  (Layout.State.scan cursor.fuel { cursor }).toList

end Parlance.Yaml
