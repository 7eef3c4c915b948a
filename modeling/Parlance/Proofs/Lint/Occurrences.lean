import Mathlib.Tactic.Tauto
import Parlance.Proofs.Lint.Findings

namespace Parlance

/-!
The references of a program in the order of its text, each with the functions
around it. A reference is skipped where it is the target of an assignment and in
the statements that a return stands in front of.
-/

/-- The statements of the blocks that a node has itself. -/
def Node.bodies : Node → List (List Node)
  | .block body => [body.statements]
  | .conditional _ _ (some body) _ => [body.statements]
  | .declaration _ _ _ (some body) => [body.statements]
  | _ => []

/-- The statements of each block, and those of the program itself. -/
def Program.blocks (program : Program) : List (List Node) :=
  program.statements :: program.parts.flatMap Node.bodies

/-- Among these statements the node stands in one that follows a return. -/
def FollowsReturn (statements : List Node) (node : Node) : Prop :=
  ∃ front span value behind, statements = front ++ .giveBack span value :: behind ∧
    node ∈ Node.partsOfAll behind

/-- A reference with the functions around it. It is skipped where it is assigned
to and where a return stands in front of it. -/
structure Occurrence where
  functions : List Function
  span : Span
  name : Text
  skipped : Bool

namespace Occurrence

def node (occurrence : Occurrence) : Node :=
  .reference occurrence.span occurrence.name

def entry (occurrence : Occurrence) : List Function × Node :=
  (occurrence.functions, occurrence.node)

def skip (occurrence : Occurrence) : Occurrence :=
  { occurrence with skipped := true }

def ofNode (around : List Function) : Node → Option Occurrence
  | .reference span name => some ⟨around, span, name, false⟩
  | _ => none

end Occurrence

/-- The references in a formula. -/
def Node.reads (around : List Function) (node : Node) : List Occurrence :=
  node.parts.filterMap (Occurrence.ofNode around)

mutual

def Node.occurrences (around : List Function) : Node → List Occurrence
  | .declaration _ name parameters body =>
    Block.occurrencesOfOption (around ++ [⟨name, parameters, body⟩]) body
  | .giveBack _ value => value.reads around
  | .conditional _ condition body alternative =>
    condition.reads around ++
      (Block.occurrencesOfOption around body ++ Node.occurrencesOfOption around alternative)
  | .unary _ _ operand => operand.reads around
  | .binary _ operator left right =>
    (if Lint.isTarget operator left then (left.reads around).map Occurrence.skip
      else left.reads around) ++ right.reads around
  | .block body => body.occurrences around
  | node => node.reads around

def Node.occurrencesOfAll (around : List Function) : List Node → List Occurrence
  | [] => []
  | node :: nodes =>
    node.occurrences around ++
      if Lint.isReturn node then (Node.occurrencesOfAll around nodes).map Occurrence.skip
      else Node.occurrencesOfAll around nodes

def Node.occurrencesOfOption (around : List Function) : Option Node → List Occurrence
  | none => []
  | some node => node.occurrences around

def Block.occurrences (around : List Function) : Block → List Occurrence
  | .mk _ statements => Node.occurrencesOfAll around statements

def Block.occurrencesOfOption (around : List Function) : Option Block → List Occurrence
  | none => []
  | some body => body.occurrences around

end

def Program.occurrences (program : Program) : List Occurrence :=
  Node.occurrencesOfAll [] program.statements

def Node.isReference : Node → Bool
  | .reference .. => true
  | _ => false

theorem Lint.isTarget_iff {operator : Operator} {left : Node} :
    Lint.isTarget operator left = true ↔ operator = .assign ∧ left.isReference = true := by
  by_cases assigns : operator = .assign
  · subst assigns
    cases left <;> simp [Lint.isTarget, Lint.target, Node.isReference]
  · unfold Lint.isTarget Lint.target
    split
    · contradiction
    · simp [assigns]

theorem Lint.not_isTarget_of_formula {span : Span} {operator : Operator} {left right : Node}
    (isFormula : Node.IsFormula (.binary span operator left right)) :
    ¬ Lint.isTarget operator left = true := by
  rw [Lint.isTarget_iff]
  rintro ⟨rfl, _⟩
  exact absurd isFormula.1 (by decide)

mutual

theorem Node.scopes_of_formula (around : List Function) : ∀ node : Node, node.IsFormula →
    node.scopes around = node.parts.map (Prod.mk around)
  | .number .., _ => rfl
  | .string .., _ => rfl
  | .reference .., _ => rfl
  | .call _ _ arguments, isFormula =>
      congrArg _ (Node.scopesOfAll_of_formulas around arguments isFormula.2)
  | .binary _ _ left right, isFormula => by
      rw [Node.scopes, Node.parts, left.scopes_of_formula around isFormula.2.1,
        right.scopes_of_formula around isFormula.2.2, List.map_cons, List.map_append]

theorem Node.scopesOfAll_of_formulas (around : List Function) : ∀ nodes : List Node,
    Node.AreFormulas nodes →
      Node.scopesOfAll around nodes = (Node.partsOfAll nodes).map (Prod.mk around)
  | [], _ => rfl
  | node :: nodes, ⟨isFormula, areFormulas⟩ => by
      rw [Node.scopesOfAll, Node.partsOfAll, node.scopes_of_formula around isFormula,
        Node.scopesOfAll_of_formulas around nodes areFormulas, List.map_append]

end

theorem Occurrence.map_skip (occurrences : List Occurrence) :
    (occurrences.map skip).map entry = occurrences.map entry :=
  List.map_map

theorem Occurrence.map_ofNode (around : List Function) (nodes : List Node) :
    (nodes.filterMap (ofNode around)).map entry =
      (nodes.map (Prod.mk around)).filter (·.2.isReference) := by
  induction nodes with
  | nil => rfl
  | cons node nodes inductionHypothesis =>
      cases node with
      | reference span name => exact congrArg (List.cons _) inductionHypothesis
      | _ => exact inductionHypothesis

section Formulas

variable {node : Node} (isFormula : node.IsFormula)
include isFormula

theorem Node.map_reads (around : List Function) :
    (node.reads around).map Occurrence.entry = (node.scopes around).filter (·.2.isReference) := by
  rw [Node.scopes_of_formula around node isFormula]
  exact Occurrence.map_ofNode around node.parts

theorem Node.occurrences_of_formula (around : List Function) :
    node.occurrences around = node.reads around := by
  cases node with
  | number | string | reference | call => rfl
  | binary span operator left right =>
      rw [Node.occurrences, if_neg (Lint.not_isTarget_of_formula isFormula)]
      exact List.filterMap_append.symm
  | unary | block | conditional | declaration | giveBack | program => exact isFormula.elim

theorem Node.assign_not_mem_parts (span : Span) (left right : Node) :
    .binary span .assign left right ∉ node.parts := by
  intro member
  have isBinary := (node.isFormula_of_mem_parts isFormula _ member).1
  exact absurd isBinary (by decide)

theorem Node.bodies_of_formula : node.bodies = [] := by
  cases node with
  | number | string | reference | call | binary => rfl
  | unary | block | conditional | declaration | giveBack | program => exact isFormula.elim

end Formulas

theorem occurrences_listed : TreeInduction
    (fun node => ∀ around, (node.occurrences around).map Occurrence.entry =
      (node.scopes around).filter (·.2.isReference))
    (fun nodes => ∀ around, (Node.occurrencesOfAll around nodes).map Occurrence.entry =
      (Node.scopesOfAll around nodes).filter (·.2.isReference))
    (fun node => ∀ around, (Node.occurrencesOfOption around node).map Occurrence.entry =
      (Node.scopesOfOption around node).filter (·.2.isReference)) where
  formula node isFormula around := by
    rw [Node.occurrences_of_formula isFormula, Node.map_reads isFormula]
  assignment span left right leftFormula rightFormula around := by
    rw [Node.occurrences, Node.scopes, List.filter_cons_of_neg Bool.false_ne_true,
      List.filter_append, List.map_append, Node.map_reads rightFormula,
      apply_ite (List.map Occurrence.entry), Occurrence.map_skip, ite_self,
      Node.map_reads leftFormula]
  print span operand isFormula around := Node.map_reads isFormula around
  giveBack span value isFormula around := Node.map_reads isFormula around
  conditional span condition place nodes other isFormula listed listed' around := by
    have bodyListed :
        (Block.occurrencesOfOption around (some (.mk place nodes))).map Occurrence.entry =
          (Block.scopesOfOption around (some (.mk place nodes))).filter (·.2.isReference) :=
      listed around
    rw [Node.occurrences, Node.scopes, List.filter_cons_of_neg Bool.false_ne_true,
      List.filter_append, List.filter_append, List.map_append, List.map_append,
      Node.map_reads isFormula, bodyListed, listed']
  declaration span name parameters place nodes _ listed around := listed _
  nil around := rfl
  cons node nodes _ listed listed' around := by
    rw [Node.occurrencesOfAll, Node.scopesOfAll, List.filter_append, List.map_append, listed,
      apply_ite (List.map Occurrence.entry), Occurrence.map_skip, ite_self, listed']
  nothing around := rfl
  chained span condition body other listed := listed
  block place nodes listed := listed

theorem mem_occurrencesOfAll {nodes : List Node} (areStatements : Node.AreStatements nodes)
    (around : List Function) {node : Node} (isReference : node.isReference = true) :
    (∃ occurrence ∈ Node.occurrencesOfAll around nodes, occurrence.node = node) ↔
      node ∈ Node.partsOfAll nodes := by
  have listed := occurrences_listed.ofStatements nodes areStatements around
  rw [← Node.map_scopesOfAll around, List.mem_map]
  constructor
  · rintro ⟨occurrence, member, rfl⟩
    have inside := List.mem_map_of_mem (f := Occurrence.entry) member
    rw [listed] at inside
    exact ⟨_, (List.mem_filter.mp inside).1, rfl⟩
  · rintro ⟨entry, member, rfl⟩
    have inside : entry ∈ (Node.scopesOfAll around nodes).filter (·.2.isReference) :=
      List.mem_filter.mpr ⟨member, isReference⟩
    rw [← listed] at inside
    obtain ⟨occurrence, member, same⟩ := List.mem_map.mp inside
    exact ⟨occurrence, member, congrArg Prod.snd same⟩

theorem followsReturn_cons {first node : Node} {nodes : List Node} :
    FollowsReturn (first :: nodes) node ↔
      Lint.isReturn first = true ∧ node ∈ Node.partsOfAll nodes ∨ FollowsReturn nodes node := by
  constructor
  · rintro ⟨front, span, value, behind, whole, inside⟩
    cases front with
    | nil =>
        cases whole
        exact .inl ⟨rfl, inside⟩
    | cons other front =>
        cases whole
        exact .inr ⟨front, span, value, behind, rfl, inside⟩
  · rintro (⟨returns, inside⟩ | ⟨front, span, value, behind, rfl, inside⟩)
    · cases first with
      | giveBack span value => exact ⟨[], span, value, nodes, rfl, inside⟩
      | _ => contradiction
    · exact ⟨first :: front, span, value, behind, rfl, inside⟩

theorem not_followsReturn_nil (node : Node) : ¬ FollowsReturn [] node := by
  rintro ⟨front, span, value, behind, whole, _⟩
  simp at whole

/-- Among the parts of a tree, the node is assigned to or follows a return. -/
def Hides (parts : List Node) (node : Node) : Prop :=
  (∃ place value, .binary place .assign node value ∈ parts) ∨
    ∃ part ∈ parts, ∃ statements ∈ part.bodies, FollowsReturn statements node

theorem hides_cons {first node : Node} {parts : List Node} :
    Hides (first :: parts) node ↔
      (∃ place value, .binary place .assign node value = first) ∨
        (∃ statements ∈ first.bodies, FollowsReturn statements node) ∨ Hides parts node := by
  simp only [Hides, List.mem_cons, exists_or, exists_eq_or_imp]
  rw [or_or_or_comm, or_assoc]

theorem hides_append {first second : List Node} {node : Node} :
    Hides (first ++ second) node ↔ Hides first node ∨ Hides second node := by
  simp only [Hides, List.mem_append, exists_or, or_and_right]
  exact or_or_or_comm

theorem hides_cons_of_block {first node : Node} {parts statements : List Node}
    (own : first.bodies = [statements]) :
    Hides (first :: parts) node ↔ Hides parts node ∨ FollowsReturn statements node := by
  have noTarget : ¬ ∃ place value, .binary place .assign node value = first := by
    rintro ⟨place, value, rfl⟩
    cases own
  rw [hides_cons, own, or_iff_right noTarget, or_comm]
  simp only [List.mem_singleton, exists_eq_left]

theorem Node.not_hides_of_formula {node : Node} (isFormula : node.IsFormula) (other : Node) :
    ¬ Hides node.parts other := by
  rintro (⟨place, value, member⟩ | ⟨part, member, statements, inside, _⟩)
  · exact Node.assign_not_mem_parts isFormula place other value member
  · rw [Node.bodies_of_formula (node.isFormula_of_mem_parts isFormula part member)] at inside
    cases inside

def Skipped (occurrences : List Occurrence) (node : Node) : Prop :=
  ∃ occurrence ∈ occurrences, occurrence.node = node ∧ occurrence.skipped = true

theorem skipped_append {first second : List Occurrence} {node : Node} :
    Skipped (first ++ second) node ↔ Skipped first node ∨ Skipped second node := by
  simp only [Skipped, List.mem_append, exists_or, or_and_right]

theorem skipped_map_skip {occurrences : List Occurrence} {node : Node} :
    Skipped (occurrences.map Occurrence.skip) node ↔
      ∃ occurrence ∈ occurrences, occurrence.node = node := by
  simp [Skipped, Occurrence.skip, Occurrence.node]

theorem Node.not_skipped_reads (around : List Function) (node other : Node) :
    ¬ Skipped (node.reads around) other := by
  rintro ⟨occurrence, member, _, skipped⟩
  obtain ⟨part, _, made⟩ := List.mem_filterMap.mp member
  cases part with
  | reference span name =>
      cases made
      cases skipped
  | _ => cases made

theorem skipped_target (around : List Function) (left : Node) (span : Span) (name : Text) :
    Skipped (if Lint.isTarget .assign left then (left.reads around).map Occurrence.skip
      else left.reads around) (.reference span name) ↔ .reference span name = left := by
  cases left with
  | reference place other =>
      rw [if_pos (Lint.isTarget_iff.mpr ⟨rfl, rfl⟩), skipped_map_skip]
      simp [Node.reads, Node.parts, Occurrence.ofNode, Occurrence.node, eq_comm]
  | _ =>
      rw [if_neg (by simp [Lint.isTarget_iff, Node.isReference])]
      simp [Node.not_skipped_reads]

theorem occurrences_skipped (span : Span) (name : Text) : TreeInduction
    (fun node => ∀ around, Skipped (node.occurrences around) (.reference span name) ↔
      Hides node.parts (.reference span name))
    (fun nodes => ∀ around, Skipped (Node.occurrencesOfAll around nodes) (.reference span name) ↔
      Hides (Node.partsOfAll nodes) (.reference span name) ∨
        FollowsReturn nodes (.reference span name))
    (fun node => ∀ around, Skipped (Node.occurrencesOfOption around node) (.reference span name) ↔
      Hides (Node.partsOfOption node) (.reference span name)) where
  formula node isFormula around := by
    rw [Node.occurrences_of_formula isFormula]
    exact iff_of_false (Node.not_skipped_reads around node _)
      (Node.not_hides_of_formula isFormula _)
  assignment place left right leftFormula rightFormula around := by
    rw [Node.occurrences, skipped_append, skipped_target, Node.parts, hides_cons, hides_append]
    simp [Node.not_skipped_reads, Node.not_hides_of_formula leftFormula,
      Node.not_hides_of_formula rightFormula, Node.bodies]
  print place operand isFormula around := by
    rw [Node.occurrences, Node.parts, hides_cons]
    simp [Node.not_skipped_reads, Node.not_hides_of_formula isFormula, Node.bodies]
  giveBack place value isFormula around := by
    rw [Node.occurrences, Node.parts, hides_cons]
    simp [Node.not_skipped_reads, Node.not_hides_of_formula isFormula, Node.bodies]
  conditional place condition place' nodes other isFormula body alternative around := by
    rw [Node.occurrences, skipped_append, skipped_append, alternative, Block.occurrencesOfOption,
      Block.occurrences, body, Node.parts, hides_cons_of_block rfl, hides_append, hides_append,
      or_iff_right (Node.not_skipped_reads around condition _),
      or_iff_right (Node.not_hides_of_formula isFormula _), or_right_comm]
    rfl
  declaration place function parameters place' nodes _ body around := by
    rw [Node.occurrences, Block.occurrencesOfOption, Block.occurrences, body, Node.parts,
      hides_cons_of_block rfl]
    rfl
  nil around := by
    simp [Skipped, Hides, Node.occurrencesOfAll, Node.partsOfAll, not_followsReturn_nil]
  cons node nodes areStatements first others around := by
    rw [Node.occurrencesOfAll, skipped_append, first, Node.partsOfAll, hides_append,
      followsReturn_cons]
    cases returns : Lint.isReturn node with
    | true =>
        -- All that follows is skipped, so what is hidden there for its own sake adds nothing.
        have within : Hides (Node.partsOfAll nodes) (.reference span name) ∨
            FollowsReturn nodes (.reference span name) →
            .reference span name ∈ Node.partsOfAll nodes := by
          intro hidden
          obtain ⟨occurrence, member, same, _⟩ := (others around).mpr hidden
          exact (mem_occurrencesOfAll areStatements around rfl).mp ⟨occurrence, member, same⟩
        rw [if_pos rfl, skipped_map_skip, mem_occurrencesOfAll areStatements around rfl]
        tauto
    | false =>
        rw [if_neg Bool.false_ne_true, others]
        tauto
  nothing around := by
    simp [Skipped, Hides, Node.occurrencesOfOption, Node.partsOfOption]
  chained place condition body other shown := shown
  block place nodes body around := by
    rw [Node.occurrencesOfOption, Node.occurrences, Block.occurrences, body, Node.partsOfOption,
      Node.parts, hides_cons_of_block rfl]
    rfl

theorem Node.functions_of_mem_reads {around : List Function} {node : Node} {occurrence : Occurrence}
    (member : occurrence ∈ node.reads around) : occurrence.functions = around := by
  obtain ⟨part, _, made⟩ := List.mem_filterMap.mp member
  cases part with
  | reference span name =>
      cases made
      rfl
  | _ => cases made

/-- The functions around an occurrence have bodies of their own. -/
def Occurrence.Enclosed (occurrence : Occurrence) : Prop :=
  ∀ function ∈ occurrence.functions, Block.IsBody function.body

theorem Node.enclosed_reads {around : List Function}
    (areBodies : ∀ function ∈ around, Block.IsBody function.body) (node : Node) :
    ∀ occurrence ∈ node.reads around, occurrence.Enclosed := by
  intro occurrence member
  rw [Occurrence.Enclosed, Node.functions_of_mem_reads member]
  exact areBodies

theorem enclosed_map_skip {occurrences : List Occurrence}
    (enclosed : ∀ occurrence ∈ occurrences, occurrence.Enclosed) :
    ∀ occurrence ∈ occurrences.map Occurrence.skip, occurrence.Enclosed :=
  List.forall_mem_map.mpr enclosed

theorem occurrences_enclosed : TreeInduction
    (fun node => ∀ around, (∀ function ∈ around, Block.IsBody function.body) →
      ∀ occurrence ∈ node.occurrences around, occurrence.Enclosed)
    (fun nodes => ∀ around, (∀ function ∈ around, Block.IsBody function.body) →
      ∀ occurrence ∈ Node.occurrencesOfAll around nodes, occurrence.Enclosed)
    (fun node => ∀ around, (∀ function ∈ around, Block.IsBody function.body) →
      ∀ occurrence ∈ Node.occurrencesOfOption around node, occurrence.Enclosed) where
  formula node isFormula around areBodies := by
    rw [Node.occurrences_of_formula isFormula]
    exact Node.enclosed_reads areBodies node
  assignment span left right _ _ around areBodies := by
    rw [Node.occurrences]
    refine List.forall_mem_append.mpr ⟨?_, Node.enclosed_reads areBodies right⟩
    split
    · exact enclosed_map_skip (Node.enclosed_reads areBodies left)
    · exact Node.enclosed_reads areBodies left
  print span operand _ around areBodies := Node.enclosed_reads areBodies operand
  giveBack span value _ around areBodies := Node.enclosed_reads areBodies value
  conditional span condition place nodes other _ body alternative around areBodies :=
    List.forall_mem_append.mpr ⟨Node.enclosed_reads areBodies condition,
      List.forall_mem_append.mpr ⟨body around areBodies, alternative around areBodies⟩⟩
  declaration span name parameters place nodes areStatements body around areBodies :=
    body _ (List.forall_mem_append.mpr ⟨areBodies, List.forall_mem_singleton.mpr areStatements⟩)
  nil around _ := List.forall_mem_nil _
  cons node nodes _ first others around areBodies := by
    rw [Node.occurrencesOfAll]
    refine List.forall_mem_append.mpr ⟨first around areBodies, ?_⟩
    split
    · exact enclosed_map_skip (others around areBodies)
    · exact others around areBodies
  nothing around _ := List.forall_mem_nil _
  chained span condition body other shown := shown
  block place nodes body := body

namespace Program

variable {program : Program}

theorem map_occurrences (wellFormed : program.WellFormed) :
    program.occurrences.map Occurrence.entry = program.scopes.filter (·.2.isReference) :=
  occurrences_listed.ofStatements _ wellFormed.areStatements []

theorem mem_map_occurrences (wellFormed : program.WellFormed) {functions : List Function}
    {span : Span} {name : Text} :
    (∃ occurrence ∈ program.occurrences, occurrence.entry = (functions, .reference span name)) ↔
      (functions, .reference span name) ∈ program.scopes := by
  rw [← List.mem_map, map_occurrences wellFormed, List.mem_filter]
  exact and_iff_left rfl

theorem hides_or_followsReturn {node : Node} :
    Hides program.parts node ∨ FollowsReturn program.statements node ↔
      (∃ place value, .binary place .assign node value ∈ program.parts) ∨
        ∃ statements ∈ program.blocks, FollowsReturn statements node := by
  have inBlocks : (∃ statements ∈ program.blocks, FollowsReturn statements node) ↔
      (∃ part ∈ program.parts, ∃ statements ∈ part.bodies, FollowsReturn statements node) ∨
        FollowsReturn program.statements node := by
    simp only [blocks, List.mem_cons, exists_eq_or_imp, List.mem_flatMap]
    rw [or_comm]
    grind
  rw [inBlocks, Hides, or_assoc]

section Parsed

variable {file source : Text} (accepted : parse file source = .ok program)
include accepted

theorem occurrences_ordered :
    program.occurrences.Pairwise fun first second => first.span.start.Before second.span.start := by
  have listed := map_occurrences (wellFormed_of_parse accepted)
  have starts : program.occurrences.map (·.span.start) =
      (program.parts.filter Node.isReference).map (·.span.start) := by
    calc program.occurrences.map (·.span.start)
      _ = (program.occurrences.map Occurrence.entry).map (·.2.span.start) := by
        rw [List.map_map]
        rfl
      _ = (program.scopes.filter (·.2.isReference)).map (·.2.span.start) := by rw [listed]
      _ = (program.parts.filter Node.isReference).map (·.span.start) := by
        rw [← program.map_scopes, List.filter_map, List.map_map]
        rfl
  have isMention (node : Node) (isReference : node.isReference = true) : node.isMention = true := by
    cases node with
    | reference => rfl
    | _ => contradiction
  have within : (program.occurrences.map (·.span.start)).Sublist (Node.places program.parts) := by
    rw [starts]
    exact (List.monotone_filter_right program.parts isMention).map _
  exact List.pairwise_map.mp ((ordered_places_of_parse accepted).sublist within)

/-- A occurrence is told by its place, so it is skipped if any one there is. -/
theorem skipped_iff {occurrence : Occurrence} (member : occurrence ∈ program.occurrences) :
    occurrence.skipped = true ↔
      (∃ place value, .binary place .assign occurrence.node value ∈ program.parts) ∨
        ∃ statements ∈ program.blocks, FollowsReturn statements occurrence.node := by
  have areStatements := (wellFormed_of_parse accepted).areStatements
  have skips :=
    (occurrences_skipped occurrence.span occurrence.name).ofStatements _ areStatements []
  rw [← hides_or_followsReturn]
  refine Iff.trans ⟨fun skipped => ⟨occurrence, member, rfl, skipped⟩, ?_⟩ skips
  rintro ⟨other, member', same, skipped⟩
  have distinct : (program.occurrences.map (·.span.start)).Nodup :=
    List.pairwise_map.mpr ((occurrences_ordered accepted).imp Position.Before.ne)
  cases List.inj_on_of_nodup_map distinct member' member
    (congrArg (fun node : Node => node.span.start) same)
  exact skipped

end Parsed

end Program

end Parlance
