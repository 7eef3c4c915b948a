import Parlance.Settings
import Parlance.Text.Base64
import Parlance.Yaml.Node

namespace Parlance.Settings

/-!
Settings out of a YAML document. Its mappings are read as they stand: an alias
is followed wherever a value is wanted, and what no setting wants is not looked
at. Too much of a document may not come from aliases.
-/

/-- A scalar as it is read: nothing at all, text, or a value with a meaning. -/
inductive Scalar where
  | null
  | text (value : Text)
  | plain (meaning : Yaml.Meaning) (value : Text)

namespace Scalar

def ofPlain (value : Text) : Scalar :=
  match Yaml.Meaning.ofPlain value with
  | .null => .null
  | meaning => .plain meaning value

/-- The tags of what plain scalars mean. Other tags say nothing about it. -/
def meaningTags : List Text :=
  ["!!null", "!!bool", "!!int", "!!float", "!!timestamp"].map utf8

def hasTag (tag : Text) : Scalar → Bool
  | .null => tag == utf8 "!!null"
  | .text _ => false
  | .plain meaning _ =>
    match meaning with
    | .bool _ => tag == utf8 "!!bool"
    | .int _ => tag == utf8 "!!int"
    | .float _ => tag == utf8 "!!float"
    | .timestamp => tag == utf8 "!!timestamp"
    | .null | .text => false

/-- A whole number that has a sign is also a floating point number. -/
def asFloat? : Scalar → Option Scalar
  | .plain (.int number) value =>
    if number < Word.bound then some (.plain (Yaml.Meaning.floatOfInt number) value) else none
  | _ => none

/-- A scalar is text if it is quoted, or if its tag says so or says nothing. With
another tag it must mean something of that kind. -/
def ofNode? (tag? : Option Text) (plain : Bool) (value : Text) : Option Scalar :=
  let tag := tag?.getD (utf8 "!")
  if tag = utf8 "!" then some (if plain then ofPlain value else .text value)
  else if tag = utf8 "!!binary" then (Text.ofBase64? value).map .text
  else if meaningTags.contains tag then
    if (ofPlain value).hasTag tag then some (ofPlain value)
    else if tag = utf8 "!!float" then (ofPlain value).asFloat?
    else none
  else some (.text value)

def text? : Scalar → Option Text
  | .null => none
  | .text value => some value
  | .plain _ value => some value

end Scalar

/-- Gives the field the value of a scalar. A null leaves it as it is. -/
def assignScalar? (settings : Settings) (field : Field) : Scalar → Option Settings
  | .null => some settings
  | .text value =>
    match settings.get field with
    | .text _ => settings.set? field (.text value)
    | .bool _ => (Yaml.Meaning.switch? value).bind fun value => settings.set? field (.bool value)
    | .int _ => none
  | .plain meaning value =>
    match settings.get field, meaning with
    | .text _, _ => settings.set? field (.text value)
    | .bool _, .bool value => settings.set? field (.bool value)
    | .bool _, .text =>
      (Yaml.Meaning.switch? value).bind fun value => settings.set? field (.bool value)
    | .int _, .int value => if value < Word.bound then settings.set? field (.int value) else none
    | .int _, .float (some value) => settings.set? field (.int value)
    | _, _ => none

/-- What two keys of one mapping may not have in common. -/
inductive KeyText where
  | scalar (value : Text)
  | sequence
  | mapping
  | alias (name : Text)
  deriving DecidableEq

def KeyText.ofNode : Yaml.Node → KeyText
  | .scalar _ _ value => .scalar value
  | .sequence _ => .sequence
  | .mapping _ => .mapping
  | .alias _ name _ => .alias name

def hasDuplicates : List KeyText → Bool
  | [] => false
  | key :: keys => keys.contains key || hasDuplicates keys

/-- A key by which a mapping takes over the entries of others. -/
def isMerge : Yaml.Node → Bool
  | .scalar none true value => value == utf8 "<<"
  | .scalar (some tag) plain value =>
    value == utf8 "<<" && (tag == utf8 "!!merge" || (plain && tag == utf8 "!"))
  | _ => false

/-- The settings so far, how many nodes have been visited for them, and how many
of the visits were behind an alias. -/
structure Progress where
  settings : Settings
  visits : Nat := 0
  repeats : Nat := 0

/-- Whether too many visits are behind aliases. A small document may have ninety
nine of a hundred there, a large one ten, and in between the share shrinks evenly. -/
def Progress.isExcessive (progress : Progress) : Bool :=
  let excess := min (progress.visits - 400000) 3600000
  100 < progress.repeats && 1000 < progress.visits &&
    (99 * 3600000 - 89 * excess) * progress.visits < 360000000 * progress.repeats

abbrev Loading := StateT Progress Option

structure Trail where
  anchored : Array Yaml.Node
  aliases : List Nat := []

namespace Trail

def visit (trail : Trail) : Loading Unit := do
  let progress ← getThe Progress
  let repeats := if trail.aliases.isEmpty then progress.repeats else progress.repeats + 1
  let progress := { progress with visits := progress.visits + 1, repeats }
  if progress.isExcessive then failure else set progress

def target (trail : Trail) (number : Nat) : Yaml.Node :=
  trail.anchored[number]?.getD .empty

/-- Goes behind an alias. No node lies in itself. -/
def follow (trail : Trail) (number : Nat) : Loading Trail :=
  if trail.aliases.contains number then failure
  else pure { trail with aliases := number :: trail.aliases }

def isMapping (trail : Trail) : Yaml.Node → Bool
  | .mapping _ => true
  | .alias _ _ target =>
    match trail.target target with
    | .mapping _ => true
    | _ => false
  | _ => false

/-- The name that a key gives; a null names nothing. Only the first node may be
an alias. -/
def keyName (trail : Trail) : (fuel : Nat) → Yaml.Node → Loading (Option Text)
  | 0, _ => failure
  | fuel + 1, node => do
    trail.visit
    match node with
    | .alias number _ target => (← trail.follow number).keyName fuel (trail.target target)
    | .scalar tag? plain value =>
      match Scalar.ofNode? tag? plain value with
      | some scalar => pure scalar.text?
      | none => failure
    | _ => failure

end Trail

/-- The names that are already set and do not change any more, if there are any. -/
abbrev Taken := Option (List Text)

mutual

/-- Settings out of a node. The list has the names that a merged mapping may
not set, and grows by those it sets. -/
def assignNode (trail : Trail) (place : Place) (taken : Taken) :
    (fuel : Nat) → Yaml.Node → Loading Taken
  | 0, _ => failure
  | fuel + 1, node => do
    trail.visit
    match node with
    | .alias number _ target =>
      assignNode (← trail.follow number) place taken fuel (trail.target target)
    | .scalar tag? plain value =>
      match place, Scalar.ofNode? tag? plain value with
      | .field field, some scalar =>
        let progress ← getThe Progress
        match assignScalar? progress.settings field scalar with
        | some settings => set { progress with settings }
        | none => failure
        pure taken
      | _, some .null => pure taken
      | _, _ => failure
    | .mapping entries =>
      match place with
      | .field _ => failure
      | _ =>
        if hasDuplicates (entries.map fun (key, _) => KeyText.ofNode key) then failure
        let taken ← assignEntries trail place taken [] fuel entries
        match (entries.filter fun (key, _) => isMerge key).getLast? with
        | none => pure taken
        | some (_, source) =>
          match taken with
          | some _ => mergeNode trail place taken fuel source
          | none =>
            let own ← entries.filterMapM fun (key, _) => trail.keyName 2 key
            discard (mergeNode trail place (some own) fuel source)
            pure none
    | .sequence _ => failure

/-- The entries of a mapping; `done` are the names it has set itself. -/
def assignEntries (trail : Trail) (place : Place) (taken : Taken) (done : List Text) :
    (fuel : Nat) → List (Yaml.Node × Yaml.Node) → Loading Taken
  | 0, _ => failure
  | _ + 1, [] => pure taken
  | fuel + 1, (key, value) :: entries => do
    if isMerge key then assignEntries trail place taken done fuel entries
    else
      match ← trail.keyName 2 key with
      | none => assignEntries trail place taken done fuel entries
      | some name =>
        if (taken.getD []).contains name then assignEntries trail place taken done fuel entries
        else
          match place.enter? name with
          | none => failure
          | some inner =>
            if done.contains name then failure
            discard (assignNode trail inner none fuel value)
            assignEntries trail place (taken.map (name :: ·)) (name :: done) fuel entries

def mergeNode (trail : Trail) (place : Place) (taken : Taken) :
    (fuel : Nat) → Yaml.Node → Loading Taken
  | 0, _ => failure
  | fuel + 1, .sequence items => mergeItems trail place taken fuel items
  | fuel + 1, node =>
    if trail.isMapping node then assignNode trail place taken fuel node else failure

def mergeItems (trail : Trail) (place : Place) (taken : Taken) :
    (fuel : Nat) → List Yaml.Node → Loading Taken
  | 0, _ => failure
  | _ + 1, [] => pure taken
  | fuel + 1, item :: items => do
    if trail.isMapping item then
      let taken ← assignNode trail place taken fuel item
      mergeItems trail place taken fuel items
    else failure

end

mutual

def size : Yaml.Node → Nat
  | .scalar .. => 1
  | .sequence items => 1 + sizeOfItems items
  | .mapping entries => 1 + sizeOfEntries entries
  | .alias .. => 1

def sizeOfItems : List Yaml.Node → Nat
  | [] => 0
  | item :: items => 1 + size item + sizeOfItems items

def sizeOfEntries : List (Yaml.Node × Yaml.Node) → Nat
  | [] => 0
  | (key, value) :: entries => 1 + size key + size value + sizeOfEntries entries

end

/-- A stream without documents leaves the defaults. No way through a document
goes behind an alias twice. -/
def ofYaml? (text : Text) : Option Settings :=
  match Yaml.Document.read? text with
  | none => none
  | some none => some defaults
  | some (some document) =>
    let fuel := (document.aliases + 1) * (3 * size document.root + 3)
    let trail : Trail := { anchored := document.anchored }
    let load : Loading Unit := do
      trail.visit
      discard (assignNode trail .root none fuel document.root)
    (load.run { settings := defaults }).map (·.2.settings)

end Parlance.Settings
