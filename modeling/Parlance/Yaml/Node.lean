import Parlance.Yaml.Token

namespace Parlance.Yaml

/-- A YAML value as it is written. Scalars are not given a meaning yet. -/
inductive Node where
  | scalar (tag? : Option Text) (plain : Bool) (text : Text)
  | sequence (items : List Node)
  | mapping (entries : List (Node × Node))
  /-- Stands for a node with an anchor, which may be one that it lies in. Both
  aliases and anchors are numbered. -/
  | alias (number : Nat) (name : Text) (target : Nat)

namespace Node

def empty : Node :=
  .scalar none true []

end Node

structure Document where
  root : Node
  anchored : Array Node
  /-- How many aliases there are. -/
  aliases : Nat

namespace Document

structure State where
  tokens : List Token
  handles : List (Text × Text)
  anchors : List (Text × Nat) := []
  anchored : Array Node := #[]
  aliases : Nat := 0

abbrev Reader := StateT State Option

namespace Reader

/-- The next token. It is seen only if the two after it can be read as well. -/
def peek : Reader Token := do
  let state ← get
  if (state.tokens.take 3).contains .malformed then failure
  else
    match state.tokens with
    | token :: _ => pure token
    | [] => failure

def drop : Reader Unit :=
  modify fun state => { state with tokens := state.tokens.drop 1 }

def standardTags : Text :=
  utf8 "tag:yaml.org,2002:"

/-- Tags that YAML defines are shortened to two exclamation marks and a name. -/
def shortTag (tag : Text) : Text :=
  if Text.hasPrefix standardTags tag then utf8 "!!" ++ tag.drop standardTags.length else tag

def resolveTag (handle suffix : Text) : Reader Text := do
  if handle.isEmpty then pure (shortTag suffix)
  else
    match (← get).handles.lookup handle with
    | some expansion => pure (shortTag (expansion ++ suffix))
    | none => failure

def properties : Reader (Option Text × Option Text) := do
  match ← peek with
  | .anchor name =>
    drop
    match ← peek with
    | .tag handle suffix =>
      drop
      pure (some name, some (← resolveTag handle suffix))
    | _ => pure (some name, none)
  | .tag handle suffix =>
    drop
    let tag ← resolveTag handle suffix
    match ← peek with
    | .anchor name =>
      drop
      pure (some name, some tag)
    | _ => pure (none, some tag)
  | _ => pure (none, none)

/-- The node that an alias refers to: the last one so far with its anchor. -/
def aliasOf (name : Text) : Reader Node := do
  let state ← get
  match state.anchors.lookup name with
  | some target =>
    set { state with aliases := state.aliases + 1 }
    pure (.alias state.aliases name target)
  | none => failure

def enter (anchor? : Option Text) : Reader (Option Nat) := do
  match anchor? with
  | none => pure none
  | some name =>
    let state ← get
    let number := state.anchored.size
    set { state with
      anchors := (name, number) :: state.anchors
      anchored := state.anchored.push .empty }
    pure (some number)

def leave (number? : Option Nat) (node : Node) : Reader Node := do
  match number? with
  | none => pure ()
  | some number =>
    modify fun state => { state with anchored := state.anchored.setIfInBounds number node }
  pure node

mutual

/-- A node. In a block it may be a block collection; the value of a mapping may
be a sequence that is not indented. -/
def node (inBlock unindented : Bool) : (fuel : Nat) → Reader Node
  | 0 => failure
  | fuel + 1 => do
    match ← peek with
    | .alias name =>
      drop
      aliasOf name
    | _ =>
      let (anchor?, tag?) ← properties
      let number? ← enter anchor?
      let token ← peek
      match token with
      | .scalar plain text =>
        drop
        leave number? (.scalar tag? plain text)
      | .flowSequenceStart =>
        drop
        leave number? (.sequence (← flowItems true fuel))
      | .flowMappingStart =>
        drop
        leave number? (.mapping (← flowEntries true fuel))
      | _ =>
        if unindented && token = .blockEntry then
          leave number? (.sequence (← unindentedItems fuel))
        else if inBlock && token = .blockSequenceStart then
          drop
          leave number? (.sequence (← blockItems fuel))
        else if inBlock && token = .blockMappingStart then
          drop
          leave number? (.mapping (← blockEntries fuel))
        else if anchor?.isSome || tag?.isSome then leave number? (.scalar tag? true [])
        else failure

def optional (inBlock unindented : Bool) (absent : List Token) : (fuel : Nat) → Reader Node
  | 0 => failure
  | fuel + 1 => do
    if absent.contains (← peek) then pure .empty else node inBlock unindented fuel

def blockItems : (fuel : Nat) → Reader (List Node)
  | 0 => failure
  | fuel + 1 => do
    match ← peek with
    | .blockEntry =>
      drop
      let item ← optional true false [.blockEntry, .blockEnd] fuel
      pure (item :: (← blockItems fuel))
    | .blockEnd =>
      drop
      pure []
    | _ => failure

def unindentedItems : (fuel : Nat) → Reader (List Node)
  | 0 => failure
  | fuel + 1 => do
    match ← peek with
    | .blockEntry =>
      drop
      let item ← optional true false [.blockEntry, .key, .value, .blockEnd] fuel
      pure (item :: (← unindentedItems fuel))
    | _ => pure []

def blockEntries : (fuel : Nat) → Reader (List (Node × Node))
  | 0 => failure
  | fuel + 1 => do
    match ← peek with
    | .key =>
      drop
      let key ← optional true true [.key, .value, .blockEnd] fuel
      let value ←
        match ← peek with
        | .value =>
          drop
          optional true true [.key, .value, .blockEnd] fuel
        | _ => pure .empty
      pure ((key, value) :: (← blockEntries fuel))
    | .blockEnd =>
      drop
      pure []
    | _ => failure

def separator (first : Bool) : Reader Unit := do
  if first then pure ()
  else
    match ← peek with
    | .flowEntry => drop
    | _ => failure

def flowValue (closing : Token) : (fuel : Nat) → Reader Node
  | 0 => failure
  | fuel + 1 => do
    match ← peek with
    | .value =>
      drop
      optional false false [.flowEntry, closing] fuel
    | _ => pure .empty

/-- The key of an entry that is a mapping by itself. A token in place of it is
passed over. -/
def soleKey : (fuel : Nat) → Reader Node
  | 0 => failure
  | fuel + 1 => do
    match ← peek with
    | .value | .flowEntry | .flowSequenceEnd =>
      drop
      pure .empty
    | _ => node false false fuel

def flowItems (first : Bool) : (fuel : Nat) → Reader (List Node)
  | 0 => failure
  | fuel + 1 => do
    if (← peek) = .flowSequenceEnd then
      drop
      pure []
    else
      separator first
      match ← peek with
      | .key =>
        drop
        let key ← soleKey fuel
        let value ← flowValue .flowSequenceEnd fuel
        pure (.mapping [(key, value)] :: (← flowItems false fuel))
      | .flowSequenceEnd =>
        drop
        pure []
      | _ =>
        let item ← node false false fuel
        pure (item :: (← flowItems false fuel))

def flowEntries (first : Bool) : (fuel : Nat) → Reader (List (Node × Node))
  | 0 => failure
  | fuel + 1 => do
    if (← peek) = .flowMappingEnd then
      drop
      pure []
    else
      separator first
      match ← peek with
      | .key =>
        drop
        let key ← optional false false [.value, .flowEntry, .flowMappingEnd] fuel
        let value ← flowValue .flowMappingEnd fuel
        pure ((key, value) :: (← flowEntries false fuel))
      | .flowMappingEnd =>
        drop
        pure []
      | _ =>
        let key ← node false false fuel
        pure ((key, .empty) :: (← flowEntries false fuel))

end

/-- Directives before a document: one version at most, which is 1.1, and tag
handles that differ. The result tells whether there were any. -/
def directives : (fuel : Nat) → (versioned : Bool) → (given : List Text) → Reader Bool
  | 0, _, _ => failure
  | fuel + 1, versioned, given => do
    match ← peek with
    | .version major minor =>
      if versioned || major ≠ 1 || minor ≠ 1 then failure
      else
        drop
        discard (directives fuel true given)
        pure true
    | .tagHandle handle expansion =>
      if given.contains handle then failure
      else
        drop
        modify fun state => { state with handles := (handle, expansion) :: state.handles }
        discard (directives fuel versioned (handle :: given))
        pure true
    | _ => pure false

/-- The root of the first document, if the stream has one. What follows it has to
start like something that can follow. -/
def root? (fuel : Nat) : Reader (Option Node) := do
  if (← peek) = .streamEnd then pure none
  else
    let directed ← directives fuel false []
    let root ←
      match ← peek with
      | .documentStart =>
        drop
        match ← peek with
        | .version .. | .tagHandle .. | .documentStart | .documentEnd | .streamEnd => pure .empty
        | _ => node true false fuel
      | _ => if directed then failure else node true false fuel
    discard peek
    pure (some root)

end Reader

/-- Every node takes a token, and every token at most four steps. -/
def ofTokens? (tokens : List Token) : Option (Option Document) := do
  let handles := [(utf8 "!", utf8 "!"), (utf8 "!!", Reader.standardTags)]
  let (root?, state) ← (Reader.root? (4 * tokens.length + 4)).run { tokens, handles }
  some (root?.map fun root => ⟨root, state.anchored, state.aliases⟩)

/-- The first document of a stream. The outer `none` is a malformed stream, the
inner one a stream without documents. -/
def read? (text : Text) : Option (Option Document) :=
  ofTokens? (Token.ofText text)

end Document

end Parlance.Yaml
