import Parlance.Text.Radix
import Parlance.Yaml.Cursor

namespace Parlance.Yaml

/-!
The text of scalars: plain, quoted and block scalars. Line breaks inside plain
and quoted scalars are folded: one break is a blank, more than one lose the
first.
-/

/-- The separation before the next word of a scalar: blanks on the line, or
breaks, the first one apart from the others. -/
structure Separation where
  blanks : List Char := []
  first? : Option (List Char) := none
  others : List Char := []

namespace Separation

def isBroken (separation : Separation) : Bool :=
  separation.first?.isSome

def folded (separation : Separation) : List Char :=
  match separation.first? with
  | none => separation.blanks
  | some first =>
    if first = ['\n'] then
      if separation.others.isEmpty then [' '] else separation.others
    else first ++ separation.others

def scanFrom (indent? : Option Int) : (fuel : Nat) → Separation → Scan Separation
  | 0, _ => failure
  | fuel + 1, separation => do
    Scan.need 1
    let cursor ← get
    match cursor.ahead with
    | [] => return separation
    | character :: _ =>
      if isBlank character then
        if separation.isBroken && character == '\t' &&
            indent?.any (fun indent => (cursor.column : Int) < indent) then failure
        else
          Scan.skip
          if separation.isBroken then scanFrom indent? fuel separation
          else scanFrom indent? fuel { separation with blanks := separation.blanks ++ [character] }
      else if isBreak character then
        let mark ← Scan.lineBreak
        if separation.isBroken then
          scanFrom indent? fuel { separation with others := separation.others ++ mark }
        else scanFrom indent? fuel { separation with blanks := [], first? := some mark }
      else return separation

/-- Goes over blanks and breaks. With an indentation given, a tab may not
stand before it. -/
def scan (indent? : Option Int) (separation : Separation) : Scan Separation := do
  separation.scanFrom indent? (← get).fuel

end Separation

def isFlowIndicator (character : Char) : Bool :=
  character == ',' || character == '?' || character == '[' || character == ']' ||
    character.toNat == 0x7B || character.toNat == 0x7D

/-- Whether the word of a plain scalar ends here: at a gap, at a colon before a
gap, or at an indicator. -/
def endsWord (inFlow : Bool) : List Char → Bool
  | [] => true
  | character :: rest =>
    isBlank character || isBreak character || (character == ':' && isGap rest) ||
      (inFlow && isFlowIndicator character)

def plainWord (inFlow : Bool) : (fuel : Nat) → Scan (List Char)
  | 0 => failure
  | fuel + 1 => do
    let cursor ← get
    match cursor.ahead with
    | [] => return []
    | character :: _ =>
      if endsWord inFlow cursor.ahead then return []
      else
        Scan.skip
        Scan.need 2
        return character :: (← plainWord inFlow fuel)

/-- Words and the separations between them. The last component says whether
the scalar ended at the start of a line. -/
def plainFrom (inFlow : Bool) (indent : Int) : (fuel : Nat) → Separation → Scan (List Char × Bool)
  | 0, _ => failure
  | fuel + 1, separation => do
    Scan.need 4
    let cursor ← get
    if cursor.atDocumentMark || cursor.startsWith (· == '#') then
      return ([], separation.isBroken)
    let word ← plainWord inFlow cursor.fuel
    let front := if word.isEmpty then [] else separation.folded ++ word
    let separation := if word.isEmpty then separation else {}
    let cursor ← get
    if cursor.atBlank || cursor.atBreak then
      let separation ← separation.scan (some indent)
      if !inFlow && ((← get).column : Int) < indent then return (front, separation.isBroken)
      let (back, broken) ← plainFrom inFlow indent fuel separation
      return (front ++ back, broken)
    else return (front, separation.isBroken)

def plain (inFlow : Bool) (indent : Int) : Scan (List Char × Bool) := do
  plainFrom inFlow indent (← get).fuel {}

def escaped? (character : Char) : Option Char :=
  match character with
  | '0' => some (Char.ofNat 0)
  | 'a' => some (Char.ofNat 7)
  | 'b' => some (Char.ofNat 8)
  | 't' | '\t' => some '\t'
  | 'n' => some '\n'
  | 'v' => some (Char.ofNat 11)
  | 'f' => some (Char.ofNat 12)
  | 'r' => some '\r'
  | 'e' => some (Char.ofNat 27)
  | ' ' => some ' '
  | '"' => some '"'
  | '\'' => some '\''
  | '\\' => some '\\'
  | 'N' => some (Char.ofNat 0x85)
  | '_' => some (Char.ofNat 0xA0)
  | 'L' => some (Char.ofNat 0x2028)
  | 'P' => some (Char.ofNat 0x2029)
  | _ => none

def codeLength? (character : Char) : Option Nat :=
  match character with
  | 'x' => some 2
  | 'u' => some 4
  | 'U' => some 8
  | _ => none

def escape : Scan Char := do
  match (← get).ahead.drop 1 with
  | [] => failure
  | letter :: _ =>
    match codeLength? letter with
    | some count =>
      Scan.skipMany 2
      Scan.need count
      let digits := Text.ofChars ((← get).ahead.take count)
      if digits.length ≠ count then failure
      match Text.charOfHex? count digits with
      | some (character, _) =>
        Scan.skipMany count
        return character
      | none => failure
    | none =>
      match escaped? letter with
      | some character =>
        Scan.skipMany 2
        return character
      | none => failure

/-- A word of a quoted scalar, up to a gap or the closing quote. The last
component tells that an escaped line break ended it. -/
def quotedWord (single : Bool) : (fuel : Nat) → Scan (List Char × Bool)
  | 0 => failure
  | fuel + 1 => do
    match (← get).ahead with
    | [] => return ([], false)
    | character :: rest =>
      if isBlank character || isBreak character then return ([], false)
      else if character == (if single then '\'' else '"') &&
          !(single && rest.head? == some '\'') then
        return ([], false)
      else if !single && character == '\\' && rest.head?.any isBreak then
        Scan.need 3
        Scan.skip
        discard Scan.lineBreak
        return ([], true)
      else
        let character ←
          if !single && character == '\\' then escape
          else
            Scan.skipMany (if single && character == '\'' then 2 else 1)
            pure character
        Scan.need 2
        let (word, joined) ← quotedWord single fuel
        return (character :: word, joined)

/-- The body of a quoted scalar after the opening quote. A line may not start
with a document mark. After an escaped break blanks are dropped, and only breaks
that follow remain. -/
def quotedFrom (single : Bool) : (fuel : Nat) → Scan (List Char)
  | 0 => failure
  | fuel + 1 => do
    Scan.need 4
    let cursor ← get
    if cursor.atDocumentMark || cursor.atEnd then failure
    let (word, joined) ← quotedWord single cursor.fuel
    Scan.need 1
    if (← get).startsWith (· == if single then '\'' else '"') then
      Scan.skip
      return word
    let separation ← Separation.scan none { first? := if joined then some [] else none }
    return word ++ separation.folded ++ (← quotedFrom single fuel)

def quoted (single : Bool) : Scan (List Char) := do
  Scan.skip
  quotedFrom single (← get).fuel

/-- The first place, from `place` on, where a character is not accepted. At most
`count` of them are looked at. -/
def lookPast (accepts : Char → Bool) : (count : Nat) → (place : Nat) → Scan (Option Nat)
  | 0, _ => return none
  | count + 1, place => do
    Scan.need (place + 1)
    if (← get).ahead[place]?.any accepts then lookPast accepts count (place + 1)
    else return some place

def commentReach : Nat := 512

def lineComment : Scan Unit := do
  if (← get).breaks = 0 then
    match ← lookPast isBlank commentReach 0 with
    | some place =>
      if (← get).ahead[place]? = some '#' then
        Scan.skipBlanks
        Scan.skipLine
    | none => pure ()

def approach (index : Nat) : (fuel : Nat) → Scan Unit
  | 0 => failure
  | fuel + 1 => do
    Scan.need 1
    let cursor ← get
    if index ≤ cursor.index then return
    if cursor.atBreak then discard Scan.lineBreak else Scan.skip
    approach index fuel

/-- The breaks between lines of comments that are read together. -/
def isPlainBreak (character : Char) : Bool :=
  character == '\n' || character == '\r'

def commentsFrom : (fuel : Nat) → Scan Unit
  | 0 => failure
  | fuel + 1 => do
    Scan.skipLine
    let cursor ← get
    if cursor.startsWith isPlainBreak then
      match ← lookPast (fun character => isBlank character || isPlainBreak character)
          (commentReach - 1) 1 with
      | some place =>
        if (← get).ahead[place]? = some '#' then
          approach (cursor.index + place) cursor.fuel
          commentsFrom fuel
      | none => pure ()

/-- A comment and those on the lines after it, with blank lines between them. A
tab may stand before all but the first. -/
def comments : Scan Unit := do
  commentsFrom (← get).fuel

inductive Chomping where
  | strip
  | clip
  | keep
  deriving DecidableEq

def chomping? : Scan (Option Chomping) := do
  Scan.need 1
  match (← get).ahead with
  | '+' :: _ =>
    Scan.skip
    return some .keep
  | '-' :: _ =>
    Scan.skip
    return some .strip
  | _ => return none

/-- An indentation indicator is a digit other than zero. -/
def increment? : Scan (Option Nat) := do
  Scan.need 1
  match (← get).ahead with
  | character :: _ =>
    if character == '0' then failure
    else if '1' ≤ character && character ≤ '9' then
      Scan.skip
      return some (character.toNat - 48)
    else return none
  | [] => return none

def blockHeader : Scan (Chomping × Option Nat) := do
  match ← chomping? with
  | some chomping => return (chomping, ← increment?)
  | none =>
    match ← increment? with
    | some increment => return ((← chomping?).getD .clip, some increment)
    | none => return (.clip, none)

/-- Goes over indentation and empty lines. The indentation is zero while it is
not known; `widest` is the widest one seen. -/
def blockGap (indent : Int) : (fuel : Nat) → (widest : Nat) → Scan (List Char × Nat)
  | 0, _ => failure
  | fuel + 1, widest => do
    Scan.need 1
    let cursor ← get
    let inside : Bool := indent == 0 || (cursor.column : Int) < indent
    if inside && cursor.startsWith (· == ' ') then
      Scan.skip
      blockGap indent fuel (max widest (cursor.column + 1))
    else if inside && cursor.startsWith (· == '\t') then failure
    else if cursor.atBreak then
      let mark ← Scan.lineBreak
      let (breaks, widest) ← blockGap indent fuel (max widest cursor.column)
      return (mark ++ breaks, widest)
    else return ([], max widest cursor.column)

/-- The lines of a block scalar from the start of one: its text, the break of
the last line and the empty lines after it. -/
def blockLines (literal : Bool) (indent : Int) : (fuel : Nat) → (afterBlank : Bool) →
    (lineBreak breaks : List Char) → Scan (List Char × List Char × List Char)
  | 0, _, _, _ => failure
  | fuel + 1, afterBlank, lineBreak, breaks => do
    Scan.need 1
    let cursor ← get
    if (cursor.column : Int) ≠ indent || cursor.atEnd then return ([], lineBreak, breaks)
    let startsBlank := cursor.atBlank
    let folds := !literal && !afterBlank && !startsBlank && lineBreak == ['\n']
    let joint := if folds then (if breaks.isEmpty then [' '] else []) else lineBreak
    let line ← Scan.takeWhile fun character => !isBreak character
    let following ← Scan.lineBreak
    let (gap, _) ← blockGap indent cursor.fuel 0
    let (text, last, rest) ← blockLines literal indent fuel startsBlank following gap
    return (joint ++ breaks ++ line ++ text, last, rest)

def block (literal : Bool) (outer : Int) : Scan (List Char) := do
  Scan.skip
  let (chomping, increment) ← blockHeader
  Scan.skipBlanks
  if (← get).startsWith (· == '#') then Scan.skipLine
  let cursor ← get
  if !cursor.atEnd && !cursor.atBreak then failure
  if cursor.atBreak then discard Scan.lineBreak
  let given : Int :=
    match increment with
    | some count => max outer 0 + count
    | none => 0
  let (breaks, widest) ← blockGap given cursor.fuel 0
  let indent : Int := if given = 0 then max (max widest (outer + 1)) 1 else given
  let (text, last, breaks) ← blockLines literal indent cursor.fuel false [] breaks
  let text := if chomping = .strip then text else text ++ last
  return if chomping = .keep then text ++ breaks else text

end Parlance.Yaml
