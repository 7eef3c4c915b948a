import Parlance.Proofs.Lint.Occurrences
import Parlance.Proofs.Lint.Pruning

namespace Parlance

/-!
Which reads are reported. A name is looked for in what is known before, in all
that the program assigns outside of functions, and in the parameters and
assignments of the functions around the read. Where an assignment stands, in
front of the read or behind it, and whether it is ever reached, is not asked.
-/

/-- The name is assigned outside of all functions. -/
def Assigns (entries : List (List Function × Node)) (name : Text) : Prop :=
  ∃ span place value, ([], .binary span .assign (.reference place name) value) ∈ entries

/-- A name is read behind no return, and no scope around the read provides it. -/
structure Program.UnboundRead (program : Program) (known : Known) (functions : List Function)
    (span : Span) (name : Text) : Prop where
  occurs : (functions, .reference span name) ∈ program.scopes
  read : ∀ place value, .binary place .assign (.reference span name) value ∉ program.parts
  reachable : ∀ statements ∈ program.blocks, ¬ FollowsReturn statements (.reference span name)
  unknown : name ∉ known.bound
  outside : ¬ Assigns program.scopes name
  inside : ∀ function ∈ functions, name ∉ function.parameters ∧
    ¬ Assigns (Block.scopesOfOption [] function.body) name

theorem assigns_cons {node : Node} {entries : List (List Function × Node)} {name : Text} :
    Assigns (([], node) :: entries) name ↔
      (∃ span place value, .binary span .assign (.reference place name) value = node) ∨
        Assigns entries name := by
  simp only [Assigns, List.mem_cons, Prod.mk.injEq, true_and, exists_or]

theorem assigns_append {first second : List (List Function × Node)} {name : Text} :
    Assigns (first ++ second) name ↔ Assigns first name ∨ Assigns second name := by
  simp only [Assigns, List.mem_append, exists_or]

theorem Node.not_assigns_of_formula {node : Node} (isFormula : node.IsFormula) (name : Text) :
    ¬ Assigns (node.scopes []) name := by
  rintro ⟨span, place, value, member⟩
  rw [Node.scopes_of_formula [] node isFormula] at member
  obtain ⟨part, inside, same⟩ := List.mem_map.mp member
  cases same
  exact Node.assign_not_mem_parts isFormula span _ value inside

/-- What a function assigns is not assigned outside of all functions. -/
theorem Block.not_assigns_of_function (function : Function) (body : Option Block) (name : Text) :
    ¬ Assigns (Block.scopesOfOption [function] body) name := by
  rintro ⟨span, place, value, member⟩
  have inside :=
    (Block.nested_scopesOfOption [function] body _ member).1 (List.mem_singleton_self _)
  cases inside

theorem Lint.mem_target {left : Node} {name : Text} :
    name ∈ Lint.target .assign left ↔ ∃ place, .reference place name = left := by
  cases left <;> simp [Lint.target, eq_comm]

theorem mem_assigned (name : Text) : TreeInduction
    (fun node => name ∈ Lint.assigned node ↔ Assigns (node.scopes []) name)
    (fun nodes => name ∈ Lint.assignedInAll nodes ↔ Assigns (Node.scopesOfAll [] nodes) name)
    (fun node => name ∈ Lint.assignedInAlternative node ↔
      Assigns (Node.scopesOfOption [] node) name) where
  formula node isFormula := by
    refine iff_of_false ?_ (Node.not_assigns_of_formula isFormula name)
    cases node with
    | number | string | reference | call => exact List.not_mem_nil
    | binary span operator left right =>
        intro member
        cases operator with
        | assign => exact absurd isFormula.1 (by decide)
        | _ => cases member
    | unary | block | conditional | declaration | giveBack | program => exact isFormula.elim
  assignment span left right leftFormula rightFormula := by
    rw [Lint.assigned, Lint.mem_target, Node.scopes, assigns_cons, assigns_append]
    simp [Node.not_assigns_of_formula leftFormula, Node.not_assigns_of_formula rightFormula]
  print span operand isFormula := by
    refine iff_of_false List.not_mem_nil ?_
    rw [Node.scopes, assigns_cons]
    simp [Node.not_assigns_of_formula isFormula]
  giveBack span value isFormula := by
    refine iff_of_false List.not_mem_nil ?_
    rw [Node.scopes, assigns_cons]
    simp [Node.not_assigns_of_formula isFormula]
  conditional span condition place nodes other isFormula body alternative := by
    rw [Lint.assigned, List.mem_append, Lint.assignedInOptional, Lint.assignedInBlock, body,
      alternative, Node.scopes, assigns_cons, assigns_append, assigns_append]
    simp [Node.not_assigns_of_formula isFormula, Block.scopesOfOption, Block.scopes]
  declaration span function parameters place nodes _ _ := by
    refine iff_of_false List.not_mem_nil ?_
    rw [Node.scopes, assigns_cons]
    simp [Block.not_assigns_of_function]
  nil := by simp [Lint.assignedInAll, Node.scopesOfAll, Assigns]
  cons node nodes _ first others := by
    rw [Lint.assignedInAll, List.mem_append, first, others, Node.scopesOfAll, assigns_append]
  nothing := by simp [Lint.assignedInAlternative, Node.scopesOfOption, Assigns]
  chained span condition body other shown := shown
  block place nodes body := by
    rw [Lint.assignedInAlternative, Lint.assigned, Lint.assignedInBlock, body, Node.scopesOfOption,
      Node.scopes, assigns_cons]
    simp [Block.scopes]

namespace Occurrence

variable {bound : List Text} {occurrence : Occurrence}

/-- An occurrence that is skipped, or whose name a scope around it has. -/
def isSettled (bound : List Text) (occurrence : Occurrence) : Bool :=
  occurrence.skipped || bound.contains occurrence.name ||
    occurrence.functions.any (·.names.contains occurrence.name)

theorem isSettled_eq_false_iff : occurrence.isSettled bound = false ↔
    occurrence.skipped = false ∧ occurrence.name ∉ bound ∧
      ∀ function ∈ occurrence.functions, occurrence.name ∉ function.names := by
  simp [isSettled, and_assoc]

def report (bound : List Text) (occurrence : Occurrence) : Option Diagnostic :=
  if occurrence.isSettled bound then none else some (Lint.unbound occurrence.span occurrence.name)

theorem report_eq_some_iff {found : Diagnostic} : occurrence.report bound = some found ↔
    found = Lint.unbound occurrence.span occurrence.name ∧ occurrence.isSettled bound = false := by
  unfold report
  cases occurrence.isSettled bound with
  | true => simp
  | false => simp [eq_comm]

theorem report_skip (occurrence : Occurrence) : occurrence.skip.report bound = none := rfl

end Occurrence

namespace Lint

/-- The visible names are those that the scopes around have. -/
def Sees (bound : List Text) (around : List Function) (visible : List Text) : Prop :=
  ∀ name, name ∈ visible ↔ name ∈ bound ∨ ∃ function ∈ around, name ∈ function.names

variable {context : Context} {bound visible : List Text} {around : List Function}

theorem Sees.outermost (bound : List Text) : Sees bound [] bound := by
  simp [Sees]

theorem Sees.enter (sees : Sees bound around visible) (name : Text) (parameters : List Text)
    (body : Option Block) :
    Sees bound (around ++ [⟨name, parameters, body⟩])
      (parameters ++ assignedInOptional body ++ visible) := by
  intro other
  simp only [List.mem_append, sees other, List.mem_singleton, or_and_right, exists_or,
    exists_eq_left, Function.names]
  rw [or_comm, or_assoc]

mutual

theorem unbound_expression (sees : Sees bound around visible) : ∀ node : Node, node.IsFormula →
    withCode .unboundVariable (expression context visible node) =
      (node.reads around).filterMap (Occurrence.report bound)
  | .number .., _ => rfl
  | .string .., _ => rfl
  | .reference span name, _ => by
      let occurrence : Occurrence := ⟨around, span, name, false⟩
      have seen : name ∈ visible ↔ occurrence.isSettled bound = true := by
        rw [sees name, ← Bool.not_eq_false, occurrence.isSettled_eq_false_iff]
        simp [occurrence, imp_iff_not_or]
      have single : Node.reads around (.reference span name) = [occurrence] := rfl
      rw [expression, single]
      by_cases visibly : name ∈ visible
      · have silent : occurrence.report bound = none := if_pos (seen.mp visibly)
        rw [if_pos visibly, List.filterMap_cons_none silent]
        rfl
      · have reported : occurrence.report bound = some (unbound span name) :=
          if_neg (seen.not.mp visibly)
        rw [if_neg visibly, List.filterMap_cons_some reported]
        rfl
  | .binary span operator left right, isFormula => by
      rw [expression, if_neg (not_isTarget_of_formula isFormula), withCode_append,
        unbound_expression sees left isFormula.2.1, unbound_expression sees right isFormula.2.2,
        ← List.filterMap_append]
      exact congrArg _ List.filterMap_append.symm
  | .call span name arguments, isFormula => by
      rw [expression, withCode_append, unbound_expressions sees arguments isFormula.2,
        withCode_call (by decide) (by decide), List.append_nil]
      rfl

theorem unbound_expressions (sees : Sees bound around visible) : ∀ nodes : List Node,
    Node.AreFormulas nodes → withCode .unboundVariable (expressions context visible nodes) =
      ((Node.partsOfAll nodes).filterMap (Occurrence.ofNode around)).filterMap
        (Occurrence.report bound)
  | [], _ => rfl
  | node :: nodes, ⟨isFormula, areFormulas⟩ => by
      rw [expressions, withCode_append, unbound_expression sees node isFormula,
        unbound_expressions sees nodes areFormulas, Node.partsOfAll, List.filterMap_append,
        List.filterMap_append]
      rfl

end

theorem statement_of_formula {node : Node} (isFormula : node.IsFormula) :
    statement context visible node = expression context visible node := by
  cases node with
  | number | string | reference | call | binary => rfl
  | unary | block | conditional | declaration | giveBack | program => exact isFormula.elim

theorem filterMap_skip (occurrences : List Occurrence) :
    (occurrences.map Occurrence.skip).filterMap (Occurrence.report bound) = [] := by
  rw [List.filterMap_map]
  exact List.filterMap_eq_nil_iff.mpr fun occurrence _ => occurrence.report_skip

theorem unbound_reported (context : Context) (bound : List Text) : TreeInduction
    (fun node => ∀ around visible, Sees bound around visible →
      withCode .unboundVariable (statement context visible node) =
        (node.occurrences around).filterMap (Occurrence.report bound))
    (fun nodes => ∀ around visible, Sees bound around visible →
      withCode .unboundVariable (statements context visible false nodes) =
        (Node.occurrencesOfAll around nodes).filterMap (Occurrence.report bound))
    (fun node => ∀ around visible, Sees bound around visible →
      withCode .unboundVariable (otherwise context visible node) =
        (Node.occurrencesOfOption around node).filterMap (Occurrence.report bound)) where
  formula node isFormula around visible sees := by
    rw [statement_of_formula isFormula, Node.occurrences_of_formula isFormula,
      unbound_expression sees node isFormula]
  assignment span left right leftFormula rightFormula around visible sees := by
    rw [Node.occurrences, List.filterMap_append, ← unbound_expression sees right rightFormula]
    change withCode _ (_ ++ _) = _
    rw [withCode_append]
    congr 1
    split
    · exact (filterMap_skip _).symm
    · exact unbound_expression sees left leftFormula
  print span operand isFormula around visible sees := unbound_expression sees operand isFormula
  giveBack span value isFormula around visible sees := unbound_expression sees value isFormula
  conditional span condition place nodes other isFormula body alternative around visible sees := by
    have bodyReported : withCode .unboundVariable
          (optionalBlock context visible (some (.mk place nodes))) =
        (Block.occurrencesOfOption around (some (.mk place nodes))).filterMap
          (Occurrence.report bound) :=
      body around visible sees
    rw [statement, withCode_append, withCode_append, unbound_expression sees condition isFormula,
      bodyReported, alternative around visible sees, Node.occurrences, List.filterMap_append,
      List.filterMap_append, List.append_assoc]
  declaration span name parameters place nodes _ body around visible sees :=
    body _ _ (sees.enter name parameters (some (.mk place nodes)))
  nil around visible _ := rfl
  cons node nodes _ first others around visible sees := by
    rw [statements, if_neg Bool.false_ne_true, withCode_append, first around visible sees,
      Node.occurrencesOfAll, List.filterMap_append]
    congr 1
    cases isReturn node with
    | true =>
        -- Behind a return no name is looked up, only the first statement is reported.
        rw [if_pos rfl, filterMap_skip, statements_behindReturn]
        cases nodes <;> rfl
    | false => rw [if_neg Bool.false_ne_true, others around visible sees]
  nothing around visible _ := rfl
  chained span condition body other shown := shown
  block place nodes body := body

end Lint

theorem Function.mem_names {function : Function} (isBody : Block.IsBody function.body)
    {name : Text} :
    name ∈ function.names ↔
      name ∈ function.parameters ∨ Assigns (Block.scopesOfOption [] function.body) name := by
  obtain ⟨_, parameters, body⟩ := function
  cases body with
  | none => exact isBody.elim
  | some block =>
      obtain ⟨_, nodes⟩ := block
      rw [Function.names, List.mem_append]
      exact or_congr_right ((mem_assigned name).ofStatements nodes isBody)

namespace Program

variable {program : Program} {file source : Text}

/-- The occurrences that are not settled are the reads that nothing provides for. -/
theorem unboundRead_iff (accepted : parse file source = .ok program) (known : Known)
    {occurrence : Occurrence} (member : occurrence ∈ program.occurrences) :
    occurrence.isSettled (Lint.assignedInAll program.statements ++ known.bound) = false ↔
      program.UnboundRead known occurrence.functions occurrence.span occurrence.name := by
  have wellFormed := wellFormed_of_parse accepted
  have skipped := skipped_iff accepted member
  have occurs := (mem_map_occurrences wellFormed).mp ⟨occurrence, member, rfl⟩
  have assigned := (mem_assigned occurrence.name).ofStatements _ wellFormed.areStatements
  have enclosed := occurrences_enclosed.ofStatements _ wellFormed.areStatements []
    (List.forall_mem_nil _) occurrence member
  rw [Occurrence.isSettled_eq_false_iff, ← Bool.not_eq_true, skipped, List.mem_append, assigned]
  constructor
  · rintro ⟨shown, unprovided, hidden⟩
    exact {
      occurs := occurs
      read := fun place value assigns => shown (.inl ⟨place, value, assigns⟩)
      reachable := fun statements block follows => shown (.inr ⟨statements, block, follows⟩)
      unknown := fun bound => unprovided (.inr bound)
      outside := fun assigns => unprovided (.inl assigns)
      inside := fun function around => not_or.mp
        ((Function.mem_names (enclosed function around)).not.mp (hidden function around)) }
  · intro unbound
    refine ⟨?_, not_or.mpr ⟨unbound.outside, unbound.unknown⟩, fun function around =>
      (Function.mem_names (enclosed function around)).not.mpr
        (not_or.mpr (unbound.inside function around))⟩
    rintro (⟨place, value, assigns⟩ | ⟨statements, block, follows⟩)
    · exact unbound.read place value assigns
    · exact unbound.reachable statements block follows

theorem unbound_lint (wellFormed : program.WellFormed) (known : Known) :
    Lint.withCode .unboundVariable (program.lint known) =
      program.occurrences.filterMap
        (Occurrence.report (Lint.assignedInAll program.statements ++ known.bound)) := by
  have reported := Lint.unbound_reported ⟨Lint.declaredInAll program.statements, known⟩
    (Lint.assignedInAll program.statements ++ known.bound)
  rw [lint_eq]
  exact reported.ofStatements _ wellFormed.areStatements [] _ (Lint.Sees.outermost _)

/-- In the order of the source, the unbound variables that are reported are the reads that nothing
in the program or known before provides for. -/
theorem lint_reports_unbound_reads (accepted : parse file source = .ok program) (known : Known) :
    let reports := Lint.withCode .unboundVariable (program.lint known)
    (∀ found, found ∈ reports ↔ ∃ functions span name,
        found = Lint.unbound span name ∧ program.UnboundRead known functions span name) ∧
      reports.Pairwise fun first second => ∃ place place', first.span = some place ∧
        second.span = some place' ∧ place.start.Before place'.start := by
  have wellFormed := wellFormed_of_parse accepted
  intro reports
  have listed : reports = _ := unbound_lint wellFormed known
  rw [listed]
  constructor
  · intro found
    rw [List.mem_filterMap]
    constructor
    · rintro ⟨occurrence, member, reported⟩
      obtain ⟨rfl, unsettled⟩ := Occurrence.report_eq_some_iff.mp reported
      exact ⟨_, _, _, rfl, (unboundRead_iff accepted known member).mp unsettled⟩
    · rintro ⟨functions, span, name, rfl, unbound⟩
      obtain ⟨occurrence, member, same⟩ := (mem_map_occurrences wellFormed).mpr unbound.occurs
      cases same
      exact ⟨occurrence, member, Occurrence.report_eq_some_iff.mpr
        ⟨rfl, (unboundRead_iff accepted known member).mpr unbound⟩⟩
  · rw [List.pairwise_filterMap]
    refine (occurrences_ordered accepted).imp fun before found reported found' reported' => ?_
    obtain ⟨rfl, _⟩ := Occurrence.report_eq_some_iff.mp reported
    obtain ⟨rfl, _⟩ := Occurrence.report_eq_some_iff.mp reported'
    exact ⟨_, _, rfl, rfl, before⟩

/-- A name is read outside and inside of a function, and another one behind a return. -/
theorem lint_reports_unbound_reads_function :
    let outside : Span := ⟨[], ⟨1, 5⟩, ⟨1, 6⟩⟩
    let inside : Span := ⟨[], ⟨1, 25⟩, ⟨1, 26⟩⟩
    let behind : Span := ⟨[], ⟨1, 30⟩, ⟨1, 31⟩⟩
    let program : Program := ⟨⟨[], ⟨1, 1⟩, ⟨1, 38⟩⟩, some (.mk ⟨[], ⟨1, 1⟩, ⟨1, 38⟩⟩ [
      .binary ⟨[], ⟨1, 1⟩, ⟨1, 6⟩⟩ .assign (.reference ⟨[], ⟨1, 1⟩, ⟨1, 2⟩⟩ (utf8 "a"))
        (.reference outside (utf8 "b")),
      .declaration ⟨[], ⟨1, 10⟩, ⟨1, 38⟩⟩ (utf8 "f") [] (some (.mk ⟨[], ⟨1, 18⟩, ⟨1, 38⟩⟩ [
        .giveBack ⟨[], ⟨1, 21⟩, ⟨1, 26⟩⟩ (.reference inside (utf8 "b")),
        .reference behind (utf8 "c")]))])⟩
    parse [] (utf8 "a = b IM THE f() ME TRA b IM c IM MAY") = .ok program ∧
      Lint.withCode .unboundVariable (program.lint .none) =
        [Lint.unbound outside (utf8 "b"), Lint.unbound inside (utf8 "b")] ∧
      (∃ functions name, program.UnboundRead .none functions inside name) ∧
      ∀ functions name, ¬ program.UnboundRead .none functions behind name := by
  intro outside inside behind program
  have scanned : (tokenize [] (utf8 "a = b IM THE f() ME TRA b IM c IM MAY")).toOption = some [
      .inLine .name "a" 1 2, .inLine (.mark .assign) "=" 3 4, .inLine .name "b" 5 6,
      .inLine (.keyword .terminator) "IM" 7 9, .inLine (.keyword .function) "THE" 10 13,
      .inLine .name "f" 14 15, .inLine (.mark .openParen) "(" 15 16,
      .inLine (.mark .closeParen) ")" 16 17, .inLine (.keyword .openBlock) "ME" 18 20,
      .inLine (.keyword .giveBack) "TRA" 21 24, .inLine .name "b" 25 26,
      .inLine (.keyword .terminator) "IM" 27 29, .inLine .name "c" 30 31,
      .inLine (.keyword .terminator) "IM" 32 34, .inLine (.keyword .closeBlock) "MAY" 35 38,
      .inLine .endOfFile "" 38 38] := by
    decide +kernel
  have accepted : parse [] (utf8 "a = b IM THE f() ME TRA b IM c IM MAY") = .ok program := by
    refine parse_of_tokens scanned ?_
    simp [Token.inLine, parseTokens, Grammar.topLevel, Grammar.statement, Grammar.assignment,
      Grammar.declaration, Grammar.parameters, Grammar.block, Grammar.statements,
      Grammar.terminated, Grammar.selfDelimited, Grammar.formula, Grammar.chain, Grammar.primary,
      Grammar.take, Grammar.operator?, Grammar.joined, Grammar.endToken, Span.cover, Node.span,
      Block.span, program, outside, inside, behind]
  have whole : Lint.withCode .unboundVariable (program.lint .none) =
      [Lint.unbound outside (utf8 "b"), Lint.unbound inside (utf8 "b")] := by
    decide +kernel
  have reports := (lint_reports_unbound_reads accepted .none).1
  rw [whole] at reports
  refine ⟨accepted, whole, ?_, fun functions name unbound => ?_⟩
  · obtain ⟨functions, span, name, same, unbound⟩ :=
      (reports _).mp (List.mem_cons_of_mem _ (List.mem_singleton_self _))
    cases congrArg Diagnostic.span same
    exact ⟨functions, name, unbound⟩
  · have spans : some behind ∈ [some outside, some inside] :=
      List.mem_map_of_mem (f := Diagnostic.span)
        ((reports _).mpr ⟨functions, behind, name, rfl, unbound⟩)
    exact absurd spans (by decide)

end Program

end Parlance
