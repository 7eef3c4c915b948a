import Parlance.Environment

namespace Parlance

/-!
Trees without places. Two trees are the same up to spans when their erased
forms are equal, and an environment is erased by erasing the bodies of its
functions.
-/

mutual

/-- The node with every span in it replaced by the blank one. -/
def Node.erased : Node → Node
  | .number _ value => .number .blank value
  | .string _ raw => .string .blank raw
  | .reference _ name => .reference .blank name
  | .call _ name arguments => .call .blank name (Node.erasedAll arguments)
  | .unary _ operator operand => .unary .blank operator operand.erased
  | .binary _ operator left right => .binary .blank operator left.erased right.erased
  | .block body => .block body.erased
  | .conditional _ condition body alternative =>
    .conditional .blank condition.erased (Block.erasedOption body)
      (Node.erasedOption alternative)
  | .declaration _ name parameters body =>
    .declaration .blank name parameters (Block.erasedOption body)
  | .giveBack _ value => .giveBack .blank value.erased
  | .program _ body => .program .blank (Block.erasedOption body)

def Node.erasedAll : List Node → List Node
  | [] => []
  | node :: nodes => node.erased :: Node.erasedAll nodes

def Node.erasedOption : Option Node → Option Node
  | none => none
  | some node => some node.erased

def Block.erased : Block → Block
  | .mk _ statements => .mk .blank (Node.erasedAll statements)

def Block.erasedOption : Option Block → Option Block
  | none => none
  | some body => some body.erased

end

mutual

/-- A tree without places has none to erase. -/
theorem Node.erased_erased : ∀ node : Node, node.erased.erased = node.erased
  | .number .. | .string .. | .reference .. => rfl
  | .call _ _ arguments => by simp only [Node.erased, Node.erasedAll_erasedAll arguments]
  | .unary _ _ operand => by simp only [Node.erased, operand.erased_erased]
  | .binary _ _ left right => by
      simp only [Node.erased, left.erased_erased, right.erased_erased]
  | .block body => by simp only [Node.erased, body.erased_erased]
  | .conditional _ condition body alternative => by
      simp only [Node.erased, condition.erased_erased, Block.erasedOption_erasedOption body,
        Node.erasedOption_erasedOption alternative]
  | .declaration _ _ _ body => by simp only [Node.erased, Block.erasedOption_erasedOption body]
  | .giveBack _ value => by simp only [Node.erased, value.erased_erased]
  | .program _ body => by simp only [Node.erased, Block.erasedOption_erasedOption body]

theorem Node.erasedAll_erasedAll : ∀ nodes : List Node,
    Node.erasedAll (Node.erasedAll nodes) = Node.erasedAll nodes
  | [] => rfl
  | node :: nodes => by
      simp only [Node.erasedAll, node.erased_erased, Node.erasedAll_erasedAll nodes]

theorem Node.erasedOption_erasedOption : ∀ node : Option Node,
    Node.erasedOption (Node.erasedOption node) = Node.erasedOption node
  | none => rfl
  | some node => by simp only [Node.erasedOption, node.erased_erased]

theorem Block.erased_erased : ∀ body : Block, body.erased.erased = body.erased
  | .mk _ statements => by simp only [Block.erased, Node.erasedAll_erasedAll statements]

theorem Block.erasedOption_erasedOption : ∀ body : Option Block,
    Block.erasedOption (Block.erasedOption body) = Block.erasedOption body
  | none => rfl
  | some body => by simp only [Block.erasedOption, body.erased_erased]

end

theorem Node.erasedAll_eq_map (nodes : List Node) :
    Node.erasedAll nodes = nodes.map Node.erased := by
  induction nodes with
  | nil => rfl
  | cons node nodes inductionHypothesis =>
      simp only [Node.erasedAll, inductionHypothesis, List.map_cons]

theorem Node.erasedAll_length (nodes : List Node) :
    (Node.erasedAll nodes).length = nodes.length := by
  rw [Node.erasedAll_eq_map, List.length_map]

def Program.erased (program : Program) : Program :=
  ⟨.blank, Block.erasedOption program.body⟩

theorem Program.statements_erased (program : Program) :
    program.erased.statements = Node.erasedAll program.statements := by
  obtain ⟨_, body⟩ := program
  cases body with
  | none => rfl
  | some body => cases body; rfl

def Function.erased (function : Function) : Function :=
  { function with body := Block.erasedOption function.body }

theorem Function.erased_erased (function : Function) : function.erased.erased = function.erased := by
  simp only [Function.erased, Block.erasedOption_erasedOption]

namespace Table

variable {α β : Type} (convert : α → β)

/-- The table with every value converted. -/
def map (table : Table α) : Table β :=
  ⟨table.entries.map fun entry => (entry.1, convert entry.2), by
    simpa [List.pairwise_map] using table.sorted⟩

theorem ext_entries {first second : Table α} (same : first.entries = second.entries) :
    first = second := by
  cases first
  cases second
  cases same
  rfl

theorem insertEntry_map (key : Text) (value : α) (entries : List (Text × α)) :
    insertEntry key (convert value) (entries.map fun entry => (entry.1, convert entry.2)) =
      (insertEntry key value entries).map fun entry => (entry.1, convert entry.2) := by
  induction entries with
  | nil => rfl
  | cons first rest inductionHypothesis =>
      simp only [List.map_cons, insertEntry]
      cases Text.compare key first.1 with
      | lt => rfl
      | eq => rfl
      | gt => simp only [inductionHypothesis, List.map_cons]

theorem map_insert (table : Table α) (key : Text) (value : α) :
    (table.insert key value).map convert = (table.map convert).insert key (convert value) :=
  ext_entries (insertEntry_map convert key value table.entries).symm

theorem findEntry_map (key : Text) (entries : List (Text × α)) :
    findEntry key (entries.map fun entry => (entry.1, convert entry.2)) =
      (findEntry key entries).map convert := by
  induction entries with
  | nil => rfl
  | cons first rest inductionHypothesis =>
      simp only [List.map_cons, findEntry]
      split
      · rfl
      · exact inductionHypothesis

theorem get?_map (table : Table α) (key : Text) :
    (table.map convert).get? key = (table.get? key).map convert :=
  findEntry_map convert key table.entries

end Table

namespace Environment

/-- The environment with every declared function converted. -/
def mapFunctions (convert : Function → Function) (environment : Environment) : Environment :=
  ⟨environment.bindings, environment.functions.map convert⟩

section Conversion

variable (convert : Function → Function)

theorem define_mapFunctions (keepsName : ∀ function, (convert function).name = function.name)
    (environment : Environment) (function : Function) :
    (environment.define function).mapFunctions convert =
      (environment.mapFunctions convert).define (convert function) := by
  simp only [define, mapFunctions, Table.map_insert, keepsName]

theorem function?_mapFunctions (environment : Environment) (name : Text) :
    (environment.mapFunctions convert).function? name =
      (environment.function? name).map convert :=
  Table.get?_map convert environment.functions name

theorem bind_mapFunctions (environment : Environment) (names : List Text) (values : List Value) :
    (environment.bind names values).mapFunctions convert =
      (environment.mapFunctions convert).bind names values := by
  induction names generalizing environment values with
  | nil => rfl
  | cons name names inductionHypothesis =>
      cases values with
      | nil => rfl
      | cons value values => exact inductionHypothesis (environment.set name value) values

end Conversion

/-- The environment with the places in the declared functions erased. -/
def erased (environment : Environment) : Environment :=
  ⟨environment.bindings, environment.functions.map Function.erased⟩

theorem get?_erased (environment : Environment) (name : Text) :
    environment.erased.get? name = environment.get? name := rfl

theorem define_erased (environment : Environment) (function : Function) :
    (environment.define function).erased = environment.erased.define function.erased :=
  define_mapFunctions Function.erased (fun _ => rfl) environment function

theorem function?_erased (environment : Environment) (name : Text) :
    environment.erased.function? name = (environment.function? name).map Function.erased :=
  function?_mapFunctions Function.erased environment name

theorem bind_erased (environment : Environment) (names : List Text) (values : List Value) :
    (environment.bind names values).erased = environment.erased.bind names values :=
  bind_mapFunctions Function.erased environment names values

end Environment

end Parlance
