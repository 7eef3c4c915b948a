import Parlance.Proofs.Grammar.Places
import Parlance.Proofs.Lint.Scopes
import Parlance.Proofs.Run.Scope

namespace Parlance

/-!
What a warning says about the program. A call is reported for the declarations
that the program has anywhere, a read for the assignments in the scopes around
it.
-/

namespace Lint

theorem mem_insertArity {given arity : Nat} {arities : List Nat} :
    given ∈ insertArity arity arities ↔ given = arity ∨ given ∈ arities := by
  induction arities with
  | nil => simp [insertArity]
  | cons first rest inductionHypothesis =>
      unfold insertArity
      split
      · simp
      · split
        · next same => simp [same]
        · simp only [List.mem_cons, inductionHypothesis]
          exact or_left_comm

theorem mem_arities {name : Text} {given : Nat} {declared : List (Text × Nat)} :
    given ∈ arities name declared ↔ (name, given) ∈ declared := by
  induction declared with
  | nil => simp [arities]
  | cons first rest inductionHypothesis =>
      obtain ⟨other, arity⟩ := first
      unfold arities
      split
      · next same =>
          rw [mem_insertArity, inductionHypothesis, same]
          simp
      · next differs =>
          rw [inductionHypothesis]
          simp [Ne.symm differs]

end Lint

theorem Node.declaration_not_mem_parts {node : Node} (isFormula : node.IsFormula) {span : Span}
    {name : Text} {parameters : List Text} {body : Option Block} :
    .declaration span name parameters body ∉ node.parts :=
  fun member => node.isFormula_of_mem_parts isFormula _ member

section Declared

variable {span : Span} {name : Text} {parameters : List Text} {body : Option Block}

theorem Lint.mem_declared : TreeInduction
    (fun node => .declaration span name parameters body ∈ node.parts →
      (name, parameters.length) ∈ Lint.declared node)
    (fun nodes => .declaration span name parameters body ∈ Node.partsOfAll nodes →
      (name, parameters.length) ∈ Lint.declaredInAll nodes)
    (fun node => .declaration span name parameters body ∈ Node.partsOfOption node →
      (name, parameters.length) ∈ Lint.declaredInAlternative node) where
  formula _ isFormula member := absurd member (Node.declaration_not_mem_parts isFormula)
  assignment _ left right leftFormula rightFormula member := by
    rw [Node.parts] at member
    rcases List.mem_cons.mp member with same | inside
    · cases same
    · rcases List.mem_append.mp inside with inside | inside
      · exact absurd inside (Node.declaration_not_mem_parts leftFormula)
      · exact absurd inside (Node.declaration_not_mem_parts rightFormula)
  print _ operand isFormula member := by
    rw [Node.parts] at member
    rcases List.mem_cons.mp member with same | inside
    · cases same
    · exact absurd inside (Node.declaration_not_mem_parts isFormula)
  giveBack _ value isFormula member := by
    rw [Node.parts] at member
    rcases List.mem_cons.mp member with same | inside
    · cases same
    · exact absurd inside (Node.declaration_not_mem_parts isFormula)
  conditional _ condition _ nodes other isFormula inBody inOther member := by
    rw [Node.parts] at member
    rcases List.mem_cons.mp member with same | inside
    · cases same
    · rcases List.mem_append.mp inside with inside | inside
      · exact absurd inside (Node.declaration_not_mem_parts isFormula)
      · rcases List.mem_append.mp inside with inside | inside
        · exact List.mem_append_left _ (inBody inside)
        · exact List.mem_append_right _ (inOther inside)
  declaration _ _ _ _ nodes _ inBody member := by
    rw [Node.parts] at member
    rcases List.mem_cons.mp member with same | inside
    · cases same
      exact List.mem_cons_self
    · exact List.mem_cons_of_mem _ (inBody inside)
  nil member := absurd member List.not_mem_nil
  cons node nodes _ inFirst inOthers member := by
    rcases List.mem_append.mp member with inside | inside
    · exact List.mem_append_left _ (inFirst inside)
    · exact List.mem_append_right _ (inOthers inside)
  nothing member := absurd member List.not_mem_nil
  chained _ _ _ _ shown := shown
  block _ nodes inBody member := by
    rw [Node.partsOfOption, Node.parts] at member
    rcases List.mem_cons.mp member with same | inside
    · cases same
    · exact inBody inside

theorem Program.mem_declared {program : Program} (wellFormed : program.WellFormed)
    (member : .declaration span name parameters body ∈ program.parts) :
    (name, parameters.length) ∈ Lint.declaredInAll program.statements :=
  Lint.mem_declared.ofStatements _ wellFormed.areStatements member

end Declared

mutual

/-- The parts of a node, each with the functions in whose bodies it stands, the
outermost first. -/
def Node.scopes (around : List Function) : Node → List (List Function × Node)
  | .number span value => [(around, .number span value)]
  | .string span raw => [(around, .string span raw)]
  | .reference span name => [(around, .reference span name)]
  | .call span name arguments =>
    (around, .call span name arguments) :: Node.scopesOfAll around arguments
  | .unary span operator operand => (around, .unary span operator operand) :: operand.scopes around
  | .binary span operator left right =>
    (around, .binary span operator left right) :: (left.scopes around ++ right.scopes around)
  | .block body => (around, .block body) :: body.scopes around
  | .conditional span condition body alternative =>
    (around, .conditional span condition body alternative) ::
      (condition.scopes around ++
        (Block.scopesOfOption around body ++ Node.scopesOfOption around alternative))
  | .declaration span name parameters body =>
    (around, .declaration span name parameters body) ::
      Block.scopesOfOption (around ++ [⟨name, parameters, body⟩]) body
  | .giveBack span value => (around, .giveBack span value) :: value.scopes around
  | .program span body => (around, .program span body) :: Block.scopesOfOption around body

def Node.scopesOfAll (around : List Function) : List Node → List (List Function × Node)
  | [] => []
  | node :: nodes => node.scopes around ++ Node.scopesOfAll around nodes

def Node.scopesOfOption (around : List Function) : Option Node → List (List Function × Node)
  | none => []
  | some node => node.scopes around

def Block.scopes (around : List Function) : Block → List (List Function × Node)
  | .mk _ statements => Node.scopesOfAll around statements

def Block.scopesOfOption (around : List Function) : Option Block → List (List Function × Node)
  | none => []
  | some body => body.scopes around

end

def Program.scopes (program : Program) : List (List Function × Node) :=
  Node.scopesOfAll [] program.statements

mutual

theorem Node.map_scopes (around : List Function) : ∀ node : Node,
    (node.scopes around).map Prod.snd = node.parts
  | .number .. => rfl
  | .string .. => rfl
  | .reference .. => rfl
  | .call _ _ arguments => congrArg _ (Node.map_scopesOfAll around arguments)
  | .unary _ _ operand => congrArg _ (operand.map_scopes around)
  | .binary _ _ left right => by
      simp only [Node.scopes, Node.parts, List.map_cons, List.map_append, left.map_scopes,
        right.map_scopes]
  | .block body => congrArg _ (body.map_scopes around)
  | .conditional _ condition body alternative => by
      simp only [Node.scopes, Node.parts, List.map_cons, List.map_append, condition.map_scopes,
        Block.map_scopesOfOption, Node.map_scopesOfOption]
  | .declaration _ _ _ body => congrArg _ (Block.map_scopesOfOption _ body)
  | .giveBack _ value => congrArg _ (value.map_scopes around)
  | .program _ body => congrArg _ (Block.map_scopesOfOption around body)

theorem Node.map_scopesOfAll (around : List Function) : ∀ nodes : List Node,
    (Node.scopesOfAll around nodes).map Prod.snd = Node.partsOfAll nodes
  | [] => rfl
  | node :: nodes => by
      simp only [Node.scopesOfAll, Node.partsOfAll, List.map_append, node.map_scopes,
        Node.map_scopesOfAll]

theorem Node.map_scopesOfOption (around : List Function) : ∀ node : Option Node,
    (Node.scopesOfOption around node).map Prod.snd = Node.partsOfOption node
  | none => rfl
  | some node => node.map_scopes around

theorem Block.map_scopes (around : List Function) : ∀ body : Block,
    (body.scopes around).map Prod.snd = body.parts
  | .mk _ statements => Node.map_scopesOfAll around statements

theorem Block.map_scopesOfOption (around : List Function) : ∀ body : Option Block,
    (Block.scopesOfOption around body).map Prod.snd = Block.partsOfOption body
  | none => rfl
  | some body => body.map_scopes around

end

/-- Each entry keeps the functions around, and comes with the entries of the
parts inside it. -/
def Nested (around : List Function) (entries : List (List Function × Node)) : Prop :=
  ∀ entry ∈ entries, around ⊆ entry.1 ∧ entry.2.scopes entry.1 ⊆ entries

namespace Nested

variable {around inner : List Function} {first second : List (List Function × Node)}

theorem nil : Nested around [] := List.forall_mem_nil _

theorem append (nested : Nested around first) (nested' : Nested around second) :
    Nested around (first ++ second) := by
  intro entry member
  rcases List.mem_append.mp member with inside | inside
  · obtain ⟨keeps, within⟩ := nested entry inside
    exact ⟨keeps, List.subset_append_of_subset_left _ within⟩
  · obtain ⟨keeps, within⟩ := nested' entry inside
    exact ⟨keeps, List.subset_append_of_subset_right _ within⟩

theorem cons {node : Node} (whole : node.scopes around = (around, node) :: first)
    (keeps : around ⊆ inner) (nested : Nested inner first) : Nested around (node.scopes around) := by
  intro entry member
  rw [whole] at member
  rcases List.mem_cons.mp member with rfl | inside
  · exact ⟨List.Subset.refl _, List.Subset.refl _⟩
  · obtain ⟨keeps', within⟩ := nested entry inside
    rw [whole]
    exact ⟨List.Subset.trans keeps keeps', List.subset_cons_of_subset _ within⟩

theorem flat {node : Node} (whole : node.scopes around = (around, node) :: first)
    (nested : Nested around first) : Nested around (node.scopes around) :=
  cons whole (List.Subset.refl around) nested

end Nested

mutual

theorem Node.nested_scopes (around : List Function) : ∀ node : Node,
    Nested around (node.scopes around)
  | .number .. => .flat (by rw [Node.scopes]) .nil
  | .string .. => .flat (by rw [Node.scopes]) .nil
  | .reference .. => .flat (by rw [Node.scopes]) .nil
  | .call _ _ arguments => .flat (by rw [Node.scopes]) (Node.nested_scopesOfAll around arguments)
  | .unary _ _ operand => .flat (by rw [Node.scopes]) (operand.nested_scopes around)
  | .binary _ _ left right =>
      .flat (by rw [Node.scopes]) ((left.nested_scopes around).append (right.nested_scopes around))
  | .block body => .flat (by rw [Node.scopes]) (body.nested_scopes around)
  | .conditional _ condition body alternative =>
      .flat (by rw [Node.scopes]) ((condition.nested_scopes around).append
        ((Block.nested_scopesOfOption around body).append
          (Node.nested_scopesOfOption around alternative)))
  | .declaration _ _ _ body =>
      .cons (by rw [Node.scopes]) (List.subset_append_left ..) (Block.nested_scopesOfOption _ body)
  | .giveBack _ value => .flat (by rw [Node.scopes]) (value.nested_scopes around)
  | .program _ body => .flat (by rw [Node.scopes]) (Block.nested_scopesOfOption around body)

theorem Node.nested_scopesOfAll (around : List Function) : ∀ nodes : List Node,
    Nested around (Node.scopesOfAll around nodes)
  | [] => .nil
  | node :: nodes => (node.nested_scopes around).append (Node.nested_scopesOfAll around nodes)

theorem Node.nested_scopesOfOption (around : List Function) : ∀ node : Option Node,
    Nested around (Node.scopesOfOption around node)
  | none => .nil
  | some node => node.nested_scopes around

theorem Block.nested_scopes (around : List Function) : ∀ body : Block,
    Nested around (body.scopes around)
  | .mk _ statements => Node.nested_scopesOfAll around statements

theorem Block.nested_scopesOfOption (around : List Function) : ∀ body : Option Block,
    Nested around (Block.scopesOfOption around body)
  | none => .nil
  | some body => body.nested_scopes around

end

section Programs

variable {program : Program}

theorem Program.map_scopes (program : Program) : program.scopes.map Prod.snd = program.parts :=
  Node.map_scopesOfAll [] program.statements

theorem Program.mem_parts_of_mem_scopes {functions : List Function} {node : Node}
    (member : (functions, node) ∈ program.scopes) : node ∈ program.parts := by
  rw [← program.map_scopes]
  exact List.mem_map_of_mem member

theorem Program.exists_mem_scopes {node : Node} (member : node ∈ program.parts) :
    ∃ functions, (functions, node) ∈ program.scopes := by
  rw [← program.map_scopes] at member
  obtain ⟨⟨functions, _⟩, inside, rfl⟩ := List.mem_map.mp member
  exact ⟨functions, inside⟩

/-- Where a part stands in the body of a declared function, that function is
around it. -/
theorem Program.exists_scope_of_body {span : Span} {name : Text} {parameters : List Text}
    {body : Option Block} {node : Node}
    (declared : .declaration span name parameters body ∈ program.parts)
    (inside : node ∈ Block.partsOfOption body) :
    ∃ functions, (functions, node) ∈ program.scopes ∧ ⟨name, parameters, body⟩ ∈ functions := by
  obtain ⟨around, member⟩ := exists_mem_scopes declared
  obtain ⟨_, within⟩ := Node.nested_scopesOfAll [] program.statements _ member
  rw [← Block.map_scopesOfOption (around ++ [⟨name, parameters, body⟩]) body] at inside
  obtain ⟨⟨functions, _⟩, inBody, rfl⟩ := List.mem_map.mp inside
  obtain ⟨keeps, _⟩ := Block.nested_scopesOfOption _ body _ inBody
  exact ⟨functions, within (List.mem_cons_of_mem _ inBody),
    keeps (List.mem_append_right _ (List.mem_singleton_self _))⟩

theorem scopes_unique {file source : Text} (accepted : parse file source = .ok program)
    {functions functions' : List Function} {node : Node} (isMention : node.isMention = true)
    (member : (functions, node) ∈ program.scopes) (member' : (functions', node) ∈ program.scopes) :
    functions = functions' := by
  -- Two entries of one reference or call would start at the same place.
  have distinct := nodup_places_of_parse accepted
  rw [Node.places, ← program.map_scopes, List.filter_map, List.map_map] at distinct
  have same := List.inj_on_of_nodup_map distinct (List.mem_filter.mpr ⟨member, isMention⟩)
    (List.mem_filter.mpr ⟨member', isMention⟩) rfl
  exact congrArg Prod.fst same

end Programs

namespace Lint

def unbound (span : Span) (name : Text) : Diagnostic :=
  warning .unboundVariable (utf8 "variable " ++ Text.quoted name ++ utf8 " is never assigned")
    span []

/-- What a warning is about: a call, a read of a name that neither `bound` nor a
function around it has, or a statement behind a return. -/
inductive Finding (context : Context) (bound : List Text) (entries : List (List Function × Node))
    (found : Diagnostic) : Prop
  | call {functions : List Function} {span : Span} {name : Text} {nodes : List Node}
      (member : (functions, .call span name nodes) ∈ entries)
      (reported : found ∈ Lint.call context span name nodes.length)
  | read {functions : List Function} {span : Span} {name : Text}
      (member : (functions, .reference span name) ∈ entries) (reported : found = unbound span name)
      (unassigned : name ∉ bound) (hidden : ∀ function ∈ functions, name ∉ function.names)
  | behindReturn {node : Node} (reported : found = unreachable node)

/-- The visible names are at least those that the scopes around have. -/
structure Covers (bound : List Text) (around : List Function) (visible : List Text) : Prop where
  bound : bound ⊆ visible
  functions : ∀ function ∈ around, function.names ⊆ visible

section Findings

variable {context : Context} {bound visible : List Text} {around : List Function}
  {entries entries' : List (List Function × Node)} {found : Diagnostic}

theorem Finding.mono (finding : Finding context bound entries found) (more : entries ⊆ entries') :
    Finding context bound entries' found := by
  cases finding with
  | call member reported => exact .call (more member) reported
  | read member reported unassigned hidden =>
      exact .read (more member) reported unassigned hidden
  | behindReturn reported => exact .behindReturn reported

theorem Finding.under (finding : Finding context bound entries found)
    (entry : List Function × Node) : Finding context bound (entry :: entries) found :=
  finding.mono (List.subset_cons_self entry entries)

theorem Covers.enter (covers : Covers bound around visible) (name : Text) (parameters : List Text)
    (body : Option Block) :
    Covers bound (around ++ [⟨name, parameters, body⟩])
      (parameters ++ assignedInOptional body ++ visible) where
  bound := List.subset_append_of_subset_right _ covers.bound
  functions function member := by
    rcases List.mem_append.mp member with inside | inside
    · exact List.subset_append_of_subset_right _ (covers.functions function inside)
    · rw [List.mem_singleton.mp inside]
      exact List.subset_append_left _ _

mutual

theorem finding_expression (covers : Covers bound around visible) : ∀ node : Node,
    found ∈ expression context visible node → Finding context bound (node.scopes around) found
  | .reference span name, member => by
      rw [expression] at member
      split at member
      · cases member
      · next hidden =>
          exact .read List.mem_cons_self (List.mem_singleton.mp member)
            (fun inside => hidden (covers.bound inside))
            (fun function around inside => hidden (covers.functions function around inside))
  | .binary _ operator left right, member => by
      rw [expression] at member
      rcases List.mem_append.mp member with inside | inside
      · split at inside
        · cases inside
        · exact ((finding_expression covers left inside).mono (List.subset_append_left ..)).under _
      · exact ((finding_expression covers right inside).mono (List.subset_append_right ..)).under _
  | .call _ _ arguments, member => by
      rw [expression] at member
      rcases List.mem_append.mp member with inside | inside
      · exact (finding_expressions covers arguments inside).under _
      · exact .call List.mem_cons_self inside
  | .unary _ _ operand, member => (finding_expression covers operand member).under _

theorem finding_expressions (covers : Covers bound around visible) : ∀ nodes : List Node,
    found ∈ expressions context visible nodes →
      Finding context bound (Node.scopesOfAll around nodes) found
  | node :: nodes, member => by
      rw [expressions] at member
      rcases List.mem_append.mp member with inside | inside
      · exact (finding_expression covers node inside).mono (List.subset_append_left ..)
      · exact (finding_expressions covers nodes inside).mono (List.subset_append_right ..)

end

mutual

theorem finding_statement {around : List Function} {visible : List Text}
    (covers : Covers bound around visible) : ∀ node : Node,
    found ∈ statement context visible node → Finding context bound (node.scopes around) found
  | .declaration _ name parameters body, member =>
      (finding_body (covers.enter name parameters body) body member).under _
  | .giveBack _ value, member => (finding_expression covers value member).under _
  | .conditional _ condition body alternative, member => by
      rw [statement, List.append_assoc] at member
      rw [Node.scopes]
      apply Finding.under
      rcases List.mem_append.mp member with inside | inside
      · exact (finding_expression covers condition inside).mono (List.subset_append_left ..)
      · apply Finding.mono _ (List.subset_append_right ..)
        rcases List.mem_append.mp inside with inside | inside
        · exact (finding_body covers body inside).mono (List.subset_append_left ..)
        · exact (finding_otherwise covers alternative inside).mono (List.subset_append_right ..)
  | .unary span operator operand, member =>
      finding_expression covers (.unary span operator operand) member
  | .block body, member => (finding_block covers body member).under _
  | .number span value, member => finding_expression covers (.number span value) member
  | .string span raw, member => finding_expression covers (.string span raw) member
  | .reference span name, member => finding_expression covers (.reference span name) member
  | .call span name arguments, member =>
      finding_expression covers (.call span name arguments) member
  | .binary span operator left right, member =>
      finding_expression covers (.binary span operator left right) member
  | .program span body, member => finding_expression covers (.program span body) member

theorem finding_statements {around : List Function} {visible : List Text}
    (covers : Covers bound around visible) (returned : Bool) : ∀ nodes : List Node,
    found ∈ statements context visible returned nodes →
      Finding context bound (Node.scopesOfAll around nodes) found
  | node :: nodes, member => by
      rw [statements] at member
      split at member
      · exact .behindReturn (List.mem_singleton.mp member)
      · rcases List.mem_append.mp member with inside | inside
        · exact (finding_statement covers node inside).mono (List.subset_append_left ..)
        · exact (finding_statements covers _ nodes inside).mono (List.subset_append_right ..)

theorem finding_block {around : List Function} {visible : List Text}
    (covers : Covers bound around visible) : ∀ body : Block,
    found ∈ block context visible body → Finding context bound (body.scopes around) found
  | .mk _ nodes, member => finding_statements covers false nodes member

theorem finding_body {around : List Function} {visible : List Text}
    (covers : Covers bound around visible) : ∀ body : Option Block,
    found ∈ optionalBlock context visible body →
      Finding context bound (Block.scopesOfOption around body) found
  | some body, member => finding_block covers body member

theorem finding_otherwise {around : List Function} {visible : List Text}
    (covers : Covers bound around visible) : ∀ node : Option Node,
    found ∈ otherwise context visible node →
      Finding context bound (Node.scopesOfOption around node) found
  | some (.conditional span condition body alternative), member =>
      finding_statement covers (.conditional span condition body alternative) member
  | some (.block body), member => (finding_block covers body member).under _

end

end Findings

end Lint

/-- Every warning about a program that starts with nothing is found in its tree. -/
theorem Program.finding_of_lint {program : Program} {found : Diagnostic}
    (reported : found ∈ program.lint .none) :
    Lint.Finding ⟨Lint.declaredInAll program.statements, .none⟩
      (Lint.assignedInAll program.statements) program.scopes found := by
  rw [lint_eq] at reported
  apply Lint.finding_statements _ false program.statements reported
  exact ⟨List.subset_append_left .., List.forall_mem_nil _⟩

end Parlance
