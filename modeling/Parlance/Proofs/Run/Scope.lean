import Parlance.Proofs.Run.Frame
import Parlance.Proofs.Run.Path

namespace Parlance

open Evaluation

/-!
What is in scope during the run of a program that started with nothing. Every
function is one that the program declares, and a variable is bound only if the
program assigns it outside all functions or a function binds it whose call is
open.
-/

/-- The names that a function binds in its own body. -/
def Function.names (function : Function) : List Text :=
  function.parameters ++ Lint.assignedInOptional function.body

/-- The names that may be bound while calls of these functions are open. -/
def Program.Binds (program : Program) (callers : List Function) (name : Text) : Prop :=
  name ∈ Lint.assignedInAll program.statements ∨ ∃ function ∈ callers, name ∈ function.names

/-- The function is one that the program declares, under some name. -/
def Program.Declares (program : Program) (function : Function) : Prop :=
  ∃ span name, .declaration span name function.parameters function.body ∈ program.parts

structure Environment.Confined (program : Program) (callers : List Function)
    (environment : Environment) : Prop where
  functions : ∀ name function, environment.function? name = some function →
    ∃ span, .declaration span name function.parameters function.body ∈ program.parts
  bindings : ∀ name, (environment.get? name).isSome → program.Binds callers name

namespace Evaluation

/-- The task is part of the program, and it assigns only to names in scope. -/
def Task.Confined (program : Program) (callers : List Function) : Task → Prop
  | .expression node => node ∈ program.parts
  | .arguments nodes => nodes ⊆ program.parts ∧ Node.AreFormulas nodes
  | .statement node => node ∈ program.parts ∧ ∀ name ∈ Lint.assigned node, program.Binds callers name
  | .statements _ nodes =>
    nodes ⊆ program.parts ∧ ∀ name ∈ Lint.assignedInAll nodes, program.Binds callers name
  | .body block | .invocation block =>
    Block.partsOfOption block ⊆ program.parts ∧
      ∀ name ∈ Lint.assignedInOptional block, program.Binds callers name

structure Visit.Confined (program : Program) (callers : List Function) (visit : Visit) : Prop where
  environment : visit.machine.environment.Confined program callers
  task : visit.task.Confined program callers
  callers : ∀ function ∈ callers, program.Declares function

end Evaluation

section Bindings

variable {program : Program} {callers : List Function} {environment after : Environment}

theorem Program.Binds.append {name : Text} (binds : program.Binds callers name)
    (more : List Function) : program.Binds (callers ++ more) name :=
  binds.imp_right fun ⟨function, member, inside⟩ =>
    ⟨function, List.mem_append_left more member, inside⟩

theorem Environment.get?_bind_isSome {name : Text} {names : List Text} {values : List Value}
    (bound : ((environment.bind names values).get? name).isSome) :
    name ∈ names ∨ (environment.get? name).isSome := by
  induction names generalizing environment values with
  | nil => exact .inr bound
  | cons first names inductionHypothesis =>
      cases values with
      | nil => exact .inr bound
      | cons value values =>
          rcases inductionHypothesis bound with inside | bound
          · exact .inl (List.mem_cons_of_mem first inside)
          · rw [get?_set] at bound
            split at bound
            · next same => exact .inl (same ▸ List.mem_cons_self)
            · exact .inr bound

theorem Environment.function?_bind (environment : Environment) (names : List Text)
    (values : List Value) (name : Text) :
    (environment.bind names values).function? name = environment.function? name := by
  induction names generalizing environment values with
  | nil => rfl
  | cons first names inductionHypothesis =>
      cases values with
      | nil => rfl
      | cons value values => exact inductionHypothesis (environment.set first value) values

namespace Environment.Confined

theorem empty (program : Program) (callers : List Function) :
    Environment.empty.Confined program callers where
  functions name function found := by
    rw [function?, Environment.empty, Table.get?_empty] at found
    cases found
  bindings name bound := by
    rw [get?, Environment.empty, Table.get?_empty] at bound
    cases bound

/-- The body of a called function sees what its caller sees, and the parameters. -/
theorem bind (confined : environment.Confined program callers) (function : Function)
    (values : List Value) :
    (environment.bind function.parameters values).Confined program (callers ++ [function]) where
  functions name other found := by
    rw [function?_bind] at found
    exact confined.functions name other found
  bindings name bound := by
    rcases get?_bind_isSome bound with parameter | bound
    · exact .inr ⟨function, List.mem_append_right _ (List.mem_singleton_self _),
        List.mem_append_left _ parameter⟩
    · exact (confined.bindings name bound).append [function]

theorem changes {node : Node} (confined : environment.Confined program callers)
    (changes : environment.ChangesOnly (Lint.assigned node) node.functions after)
    (inside : node.parts ⊆ program.parts)
    (assigns : ∀ name ∈ Lint.assigned node, program.Binds callers name) :
    after.Confined program callers where
  functions name function found := by
    rcases changes.functions name with same | ⟨declared, member, rfl, same⟩
    · exact confined.functions name function (same ▸ found)
    · obtain ⟨span, declaration⟩ := node.declaration_of_mem_functions member
      cases found.symm.trans same
      exact ⟨span, inside declaration⟩
  bindings name bound := by
    rcases changes.bindings name with same | ⟨member, _⟩
    · exact confined.bindings name (same ▸ bound)
    · exact assigns name member

end Environment.Confined

end Bindings

namespace Evaluation

variable {program : Program} {callers : List Function} {limits : Limits} {whole inner : Visit}
  {opening : Opening}

theorem Visit.Confined.unchanged (confined : whole.Confined program callers)
    (same : inner.machine.environment = whole.machine.environment)
    (task : inner.task.Confined program callers) : inner.Confined program (callers ++ []) := by
  rw [List.append_nil]
  exact ⟨same ▸ confined.environment, task, confined.callers⟩

/-- The called function is one of the program, so its body is part of it. -/
theorem Visit.Confined.called {nesting : Nat} {machine after : Machine} {span : Span} {name : Text}
    {nodes : List Node} {function : Function} {values : List Value}
    (confined : Visit.Confined program callers
      ⟨nesting, .expression (.call span name nodes), machine⟩)
    (found : machine.environment.function? name = some function)
    (same : after.environment = machine.environment) :
    Visit.Confined program (callers ++ [function])
      ⟨nesting, .invocation function.body, after.entered span function name values⟩ := by
  obtain ⟨place, declaration⟩ := confined.environment.functions name function found
  refine ⟨?_, ⟨?_, ?_⟩, ?_⟩
  · have environment := confined.environment.bind function values
    rw [← same] at environment
    exact environment
  · exact List.Subset.trans (List.subset_cons_of_subset _ (List.Subset.refl _))
      (program.closed_parts _ declaration)
  · intro other assigned
    exact .inr ⟨function, List.mem_append_right _ (List.mem_singleton_self _),
      List.mem_append_right _ assigned⟩
  · rw [List.forall_mem_append, List.forall_mem_singleton]
    exact ⟨confined.callers, place, name, declaration⟩

/-- Nothing but a call adds to the functions whose calls are open. -/
theorem Part.confined (wellFormed : program.WellFormed) (part : Part limits whole opening inner)
    (confined : whole.Confined program callers) :
    inner.Confined program (callers ++ (opening.function? whole.machine.environment).toList) := by
  have inside {node other : Node} (member : node ∈ program.parts) (child : other ∈ node.parts) :
      other ∈ program.parts := program.closed_parts node member child
  have isFormula {node : Node} (member : node ∈ program.parts)
      (isExpression : node.isExpression = true) : node.IsFormula :=
    (Program.isPart_of_mem_parts wellFormed node member).isFormula isExpression
  have ofConditional {span : Span} {condition : Node} {body : Option Block}
      {alternative : Option Node}
      (member : .conditional span condition body alternative ∈ program.parts) :
      condition.IsFormula := by
    rcases Program.isPart_of_mem_parts wellFormed _ member with isStatement | ⟨_, same, _⟩
    · exact isStatement.1
    · cases same
  have task := confined.task
  cases part with
  | @left _ _ span operator left right computes =>
      refine confined.unchanged rfl (inside task ?_)
      exact List.mem_cons_of_mem _ (List.mem_append_left _ left.mem_parts)
  | @right _ _ _ span operator left right _ computes evaluated =>
      have leftFormula := (isFormula task (decide_eq_true computes)).2.1
      refine confined.unchanged ((Keeps.ofFormula left leftFormula).of_ok evaluated) (inside task ?_)
      exact List.mem_cons_of_mem _ (List.mem_append_right _ right.mem_parts)
  | @assigned _ _ span place name right =>
      refine confined.unchanged rfl (inside task ?_)
      exact List.mem_cons_of_mem _ (List.mem_append_right _ right.mem_parts)
  | @arguments _ _ span name nodes _ found matching =>
      refine confined.unchanged rfl ⟨?_, (isFormula task rfl).2⟩
      exact fun node member => inside task
        (List.mem_cons_of_mem _ (Node.subset_partsOfAll nodes member))
  | @called _ _ _ span name nodes function _ found matching evaluated allowed =>
      have same := (Keeps.ofFormulas nodes (isFormula task rfl).2).of_ok evaluated
      simp only [Opening.function?, found, Option.toList_some]
      exact confined.called found same
  | invoked => exact confined.unchanged rfl task
  | argument => exact confined.unchanged rfl (task.1 List.mem_cons_self)
  | @moreArguments _ _ _ node nodes _ evaluated =>
      refine confined.unchanged ((Keeps.ofFormula node task.2.1).of_ok evaluated) ⟨?_, task.2.2⟩
      exact (List.cons_subset.mp task.1).2
  | formula isFormula => exact confined.unchanged rfl task.1
  | @printed _ _ span operand =>
      refine confined.unchanged rfl (inside task.1 ?_)
      exact List.mem_cons_of_mem _ operand.mem_parts
  | @given _ _ span value =>
      refine confined.unchanged rfl (inside task.1 ?_)
      exact List.mem_cons_of_mem _ value.mem_parts
  | @block _ _ body =>
      refine confined.unchanged rfl ⟨fun node member => inside task.1 ?_, task.2⟩
      exact List.mem_cons_of_mem _ member
  | @condition _ _ span condition body alternative =>
      refine confined.unchanged rfl (inside task.1 ?_)
      exact List.mem_cons_of_mem _ (List.mem_append_left _ condition.mem_parts)
  | @chosen _ _ _ span condition body alternative _ evaluated holds =>
      have same := (Keeps.ofFormula condition (ofConditional task.1)).of_ok evaluated
      refine confined.unchanged same ⟨fun node member => inside task.1 ?_, fun name member =>
        task.2 name (List.mem_append_left _ member)⟩
      exact List.mem_cons_of_mem _ (List.mem_append_right _ (List.mem_append_left _ member))
  | @alternative _ _ _ span condition node body _ evaluated fails =>
      have same := (Keeps.ofFormula condition (ofConditional task.1)).of_ok evaluated
      refine confined.unchanged same ⟨inside task.1 ?_, fun name member =>
        task.2 name (List.mem_append_right _ member)⟩
      exact List.mem_cons_of_mem _
        (List.mem_append_right _ (List.mem_append_right _ node.mem_parts))
  | @first _ _ _ node nodes live allowed =>
      refine confined.unchanged rfl ⟨task.1 List.mem_cons_self, fun name member => task.2 name ?_⟩
      exact List.mem_append_left _ member
  | @next nesting machine _ _ _ node nodes live allowed evaluated goesOn =>
      have member : node ∈ program.parts := task.1 List.mem_cons_self
      have changes := @changes_part limits (invoke limits nesting) node
        (Program.isPart_of_mem_parts wellFormed node member) (machine.started node.span)
      rw [evaluated] at changes
      have environment := confined.environment.changes changes (program.closed_parts node member)
        fun name assigned => task.2 name (List.mem_append_left _ assigned)
      simp only [Opening.function?, Option.toList_none, List.append_nil]
      exact ⟨environment, ⟨(List.cons_subset.mp task.1).2,
        fun name assigned => task.2 name (List.mem_append_right _ assigned)⟩, confined.callers⟩
  | @inside _ _ span nodes =>
      exact confined.unchanged rfl ⟨List.Subset.trans (Node.subset_partsOfAll nodes) task.1, task.2⟩

theorem Path.confined {visit : Visit} {functions : List Function} (wellFormed : program.WellFormed)
    (path : Path limits whole functions visit) (confined : whole.Confined program callers) :
    visit.Confined program (callers ++ functions) := by
  induction path generalizing callers with
  | here =>
      rw [List.append_nil]
      exact confined
  | part part _ inductionHypothesis =>
      rw [← List.append_assoc]
      exact inductionHypothesis (part.confined wellFormed confined)

end Evaluation

theorem Program.visit_confined (program : Program) (setup : Setup) :
    (program.visit .empty setup).Confined program [] := by
  refine ⟨.empty program [], ?_, List.forall_mem_nil _⟩
  obtain ⟨span, body⟩ := program
  cases body with
  | none => exact ⟨List.nil_subset _, fun name member => .inl member⟩
  | some block =>
      obtain ⟨place, nodes⟩ := block
      exact ⟨List.Subset.refl _, fun name member => .inl member⟩

/-- Wherever the run of a program takes it, everything is in scope. -/
theorem Program.confined_of_path {program : Program} (wellFormed : program.WellFormed)
    {setup : Setup} {callers : List Function} {visit : Visit}
    (path : Path setup.limits (program.visit .empty setup) callers visit) :
    visit.Confined program callers :=
  path.confined wellFormed (program.visit_confined setup)

end Parlance
