import Parlance.Lint
import Parlance.Proofs.Parts
import Parlance.Proofs.Run.Visit

namespace Parlance

/-!
What a run leaves alone. A call gives the caller's environment back however its
body ends, so a formula changes nothing, and a statement changes only what it
assigns or declares itself.
-/

mutual

/-- The functions a statement declares, following branches but not the bodies
of the functions. -/
def Node.functions : Node → List Function
  | .block body => body.functions
  | .conditional _ _ body alternative =>
    Block.functionsOfOption body ++ Node.functionsOfOption alternative
  | .declaration _ name parameters body => [⟨name, parameters, body⟩]
  | _ => []

def Node.functionsOfAll : List Node → List Function
  | [] => []
  | node :: nodes => node.functions ++ Node.functionsOfAll nodes

def Node.functionsOfOption : Option Node → List Function
  | none => []
  | some node => node.functions

def Block.functions : Block → List Function
  | .mk _ statements => Node.functionsOfAll statements

def Block.functionsOfOption : Option Block → List Function
  | none => []
  | some body => body.functions

end

mutual

theorem Node.declaration_of_mem_functions {function : Function} : ∀ node : Node,
    function ∈ node.functions →
      ∃ span, .declaration span function.name function.parameters function.body ∈ node.parts
  | .block body, member =>
      have ⟨span, inside⟩ := body.declaration_of_mem_functions member
      ⟨span, List.mem_cons_of_mem _ inside⟩
  | .conditional _ _ body alternative, member =>
      match List.mem_append.mp member with
      | .inl member =>
          have ⟨span, inside⟩ := Block.declaration_of_mem_functionsOfOption body member
          ⟨span, List.mem_cons_of_mem _
            (List.mem_append_right _ (List.mem_append_left _ inside))⟩
      | .inr member =>
          have ⟨span, inside⟩ := Node.declaration_of_mem_functionsOfOption alternative member
          ⟨span, List.mem_cons_of_mem _
            (List.mem_append_right _ (List.mem_append_right _ inside))⟩
  | .declaration span name parameters body, member => by
      rw [List.mem_singleton.mp member]
      exact ⟨span, Node.mem_parts _⟩

theorem Node.declaration_of_mem_functionsOfAll {function : Function} : ∀ nodes : List Node,
    function ∈ Node.functionsOfAll nodes → ∃ span,
      .declaration span function.name function.parameters function.body ∈ Node.partsOfAll nodes
  | node :: nodes, member =>
      match List.mem_append.mp member with
      | .inl member =>
          have ⟨span, inside⟩ := node.declaration_of_mem_functions member
          ⟨span, List.mem_append_left _ inside⟩
      | .inr member =>
          have ⟨span, inside⟩ := Node.declaration_of_mem_functionsOfAll nodes member
          ⟨span, List.mem_append_right _ inside⟩

theorem Node.declaration_of_mem_functionsOfOption {function : Function} : ∀ node : Option Node,
    function ∈ Node.functionsOfOption node → ∃ span,
      .declaration span function.name function.parameters function.body ∈ Node.partsOfOption node
  | some node, member => node.declaration_of_mem_functions member

theorem Block.declaration_of_mem_functions {function : Function} : ∀ body : Block,
    function ∈ body.functions → ∃ span,
      .declaration span function.name function.parameters function.body ∈ body.parts
  | .mk _ statements, member => Node.declaration_of_mem_functionsOfAll statements member

theorem Block.declaration_of_mem_functionsOfOption {function : Function} : ∀ body : Option Block,
    function ∈ Block.functionsOfOption body → ∃ span,
      .declaration span function.name function.parameters function.body ∈ Block.partsOfOption body
  | some body, member => body.declaration_of_mem_functions member

end

namespace Environment

theorem get?_set (environment : Environment) (name other : Text) (value : Value) :
    (environment.set name value).get? other =
      if other = name then some value else environment.get? other :=
  Table.get?_insert ..

theorem function?_define (environment : Environment) (function : Function) (name : Text) :
    (environment.define function).function? name =
      if name = function.name then some function else environment.function? name :=
  Table.get?_insert ..

/-- From the first environment to the second nothing has changed but that some
of the names are bound, perhaps to other values, and some of the functions
stand under their own names. -/
structure ChangesOnly (names : List Text) (functions : List Function)
    (before after : Environment) : Prop where
  bindings : ∀ name, after.get? name = before.get? name ∨
    name ∈ names ∧ (after.get? name).isSome
  functions : ∀ name, after.function? name = before.function? name ∨
    ∃ function ∈ functions, function.name = name ∧ after.function? name = some function

namespace ChangesOnly

variable {names names' : List Text} {functions functions' : List Function}
  {before middle after : Environment}

theorem refl (environment : Environment) : ChangesOnly names functions environment environment :=
  ⟨fun _ => .inl rfl, fun _ => .inl rfl⟩

theorem of_eq (same : before = after) : ChangesOnly names functions before after :=
  same ▸ refl before

theorem mono (changes : ChangesOnly names functions before after) (moreNames : names ⊆ names')
    (moreFunctions : functions ⊆ functions') : ChangesOnly names' functions' before after where
  bindings name := (changes.bindings name).imp_right fun ⟨member, bound⟩ =>
    ⟨moreNames member, bound⟩
  functions name := (changes.functions name).imp_right fun ⟨function, member, named⟩ =>
    ⟨function, moreFunctions member, named⟩

theorem trans (changes : ChangesOnly names functions before middle)
    (changes' : ChangesOnly names functions middle after) :
    ChangesOnly names functions before after where
  bindings name := by
    rcases changes'.bindings name with same | changed
    · rw [same]
      exact changes.bindings name
    · exact .inr changed
  functions name := by
    rcases changes'.functions name with same | changed
    · rw [same]
      exact changes.functions name
    · exact .inr changed

theorem set (environment : Environment) (name : Text) (value : Value) :
    ChangesOnly [name] functions environment (environment.set name value) where
  bindings other := by
    rw [get?_set]
    split
    · next same => exact .inr ⟨List.mem_singleton.mpr same, rfl⟩
    · exact .inl rfl
  functions _ := .inl rfl

theorem define (environment : Environment) (function : Function) :
    ChangesOnly names [function] environment (environment.define function) where
  bindings _ := .inl rfl
  functions name := by
    rw [function?_define]
    split
    · next same => exact .inr ⟨function, List.mem_singleton_self _, same.symm, rfl⟩
    · exact .inl rfl

end ChangesOnly

end Environment

namespace Evaluation

variable {α β : Type} {limits : Limits} {enter : Enter}

/-- The environment in front of the computation is related to the one behind
it, also when it stops early. -/
def Within (may : Environment → Environment → Prop) (work : Eval α) : Prop :=
  ∀ machine : Machine, may machine.environment (final (work machine)).environment

/-- The computation leaves the environment as it was. -/
abbrev Keeps (work : Eval α) : Prop :=
  Within Eq work

namespace Within

theorem bind {may : Environment → Environment → Prop}
    (trans : ∀ before middle after, may before middle → may middle after → may before after)
    {first : Eval α} {next : α → Eval β} (within : Within may first)
    (behind : ∀ result, Within may (next result)) : Within may (first >>= next) := by
  intro machine
  have earlier := within machine
  cases ended : first machine with
  | error halt after =>
      rw [bind_of_error ended]
      rwa [ended] at earlier
  | ok result after =>
      rw [bind_of_ok ended]
      rw [ended] at earlier
      exact trans _ _ _ earlier (behind result after)

variable {names names' : List Text} {functions functions' : List Function}

theorem changes {work : Eval α} (keeps : Keeps work) :
    Within (Environment.ChangesOnly names functions) work :=
  fun machine => .of_eq (keeps machine)

theorem mono {work : Eval α} (within : Within (Environment.ChangesOnly names functions) work)
    (moreNames : names ⊆ names') (moreFunctions : functions ⊆ functions') :
    Within (Environment.ChangesOnly names' functions') work :=
  fun machine => (within machine).mono moreNames moreFunctions

theorem followed {first : Eval α} {next : α → Eval β} (keeps : Keeps first)
    (behind : ∀ result, Within (Environment.ChangesOnly names functions) (next result)) :
    Within (Environment.ChangesOnly names functions) (first >>= next) :=
  bind (fun _ _ _ => .trans) (changes keeps) behind

end Within

namespace Keeps

theorem value (result : α) : Keeps (pure result : Eval α) :=
  fun _ => rfl

theorem fail (cause : Cause) (span : Span) : Keeps (Machine.fail cause span : Eval α) :=
  fun _ => rfl

theorem bind {first : Eval α} {next : α → Eval β} (keeps : Keeps first)
    (behind : ∀ result, Keeps (next result)) : Keeps (first >>= next) := by
  apply Within.bind _ keeps behind
  intro before middle after
  exact Eq.trans

theorem record (event : Event) : Keeps (Machine.record event) :=
  fun _ => rfl

theorem checkSignal (limits : Limits) : Keeps (Machine.checkSignal limits) := by
  intro machine
  cases asked : machine.stop? limits with
  | none =>
      rw [Machine.checkSignal_of_live asked]
      rfl
  | some cause =>
      rw [Machine.checkSignal_of_stopped asked]
      rfl

theorem countStep (limits : Limits) : Keeps (Machine.countStep limits) := by
  intro machine
  cases allowed : limits.allowsSteps (machine.steps + 1) with
  | true =>
      rw [Machine.countStep_of_allowed allowed]
      rfl
  | false =>
      rw [Machine.countStep_of_refused allowed]
      rfl

theorem lookup (name : Text) (span : Span) : Keeps (Machine.lookup name span) := by
  intro machine
  cases found : machine.environment.get? name with
  | some value =>
      rw [Machine.lookup_of_some span found]
      rfl
  | none =>
      rw [Machine.lookup_of_none span found]
      rfl

theorem print (span : Span) (text : Text) : Keeps (print span text) := by
  intro machine
  unfold Evaluation.print
  by_cases full : machine.outlet.room = some 0
  · rw [bind_of_error (Machine.write_of_full span text full)]
    rfl
  · rw [bind_of_ok (Machine.write_of_room span text full)]
    rfl

theorem resolve (name : Text) (span : Span) {use : Function → Eval α}
    (uses : ∀ function, Keeps (use function)) : Keeps (resolve name span use) := by
  intro machine
  cases found : machine.environment.function? name with
  | none =>
      rw [resolve_of_none span use found]
      rfl
  | some function =>
      rw [resolve_of_some span use found]
      exact uses function machine

/-- Nothing is asked of the body: its bindings are dropped with the call. -/
theorem call (limits : Limits) (enter : Enter) (span : Span) (function : Function) (name : Text)
    (arguments : List Value) : Keeps (Machine.call limits enter span function name arguments) := by
  intro machine
  cases allowed : limits.allowsDepth (machine.depth + 1) with
  | false =>
      rw [Machine.call_of_refused _ _ _ _ _ allowed]
      rfl
  | true =>
      rw [Machine.call_of_allowed _ _ _ _ _ allowed]
      cases enter function.body (machine.entered span function name arguments) <;> rfl

mutual

theorem ofFormula : ∀ node : Node, node.IsFormula → Keeps (expression limits enter node)
  | .number _ number, _ => value (Value.int number)
  | .string _ raw, _ => value (Value.str (unquoted raw))
  | .reference span name, _ => lookup name span
  | .call span name arguments, isFormula => by
      have argumentsKeep := ofFormulas arguments isFormula.2
      rw [expression_call]
      apply resolve
      intro function
      split
      · exact bind argumentsKeep fun values => call limits enter span function name values
      · exact fail _ span
  | .binary span operator left right, isFormula => by
      have leftKeeps := ofFormula left isFormula.2.1
      have rightKeeps := ofFormula right isFormula.2.2
      have computes : operator ≠ .assign := by
        rintro rfl
        exact absurd isFormula.1 (by decide)
      simp only [expression, if_neg computes]
      refine bind leftKeeps fun a => bind rightKeeps fun b => ?_
      cases operator.apply a b with
      | ok result => exact value result
      | error cause => exact fail cause span

theorem ofFormulas : ∀ nodes : List Node, Node.AreFormulas nodes →
    Keeps (expressions limits enter nodes)
  | [], _ => value []
  | node :: nodes, ⟨isFormula, areFormulas⟩ =>
      bind (ofFormula node isFormula) fun first =>
        bind (ofFormulas nodes areFormulas) fun others => value (first :: others)

end

theorem of_ok {work : Eval α} (keeps : Keeps work) {machine after : Machine} {result : α}
    (ended : work machine = .ok result after) : after.environment = machine.environment := by
  have kept := keeps machine
  rw [ended] at kept
  exact kept.symm

theorem of_error {work : Eval α} (keeps : Keeps work) {machine after : Machine} {halt : Halt}
    (failed : work machine = .error halt after) : after.environment = machine.environment := by
  have kept := keeps machine
  rw [failed] at kept
  exact kept.symm

end Keeps

theorem changes_assignment {span : Span} {left right : Node} (rightFormula : right.IsFormula)
    {functions : List Function} :
    Within (Environment.ChangesOnly (Lint.target .assign left) functions)
      (expression limits enter (.binary span .assign left right)) := by
  simp only [expression, if_true]
  cases left with
  | reference place name =>
      apply Within.followed (Keeps.ofFormula right rightFormula)
      intro value machine
      exact .set machine.environment name value
  | _ => exact Within.changes (Keeps.fail _ _)

theorem changes_formula {node : Node} (isFormula : node.IsFormula) {names : List Text}
    {functions : List Function} :
    Within (Environment.ChangesOnly names functions)
      (expression limits enter node >>= fun value => pure (Completion.normal value)) :=
  Within.changes (Keeps.bind (Keeps.ofFormula node isFormula) fun _ => Keeps.value _)

theorem keeps_print {span : Span} {operand : Node} (isFormula : operand.IsFormula) :
    Keeps (unary limits enter span .print operand) := by
  rw [unary_print]
  refine Keeps.bind (Keeps.ofFormula operand isFormula) fun value => ?_
  exact printed_cases span value (fun _ => Keeps.fail _ _) fun text _ => Keeps.print span text

theorem changes_step {names : List Text} {functions : List Function} {span : Span}
    {work : Eval Completion} {next : Completion → Eval Completion}
    (within : Within (Environment.ChangesOnly names functions) work)
    (behind : ∀ completion, Within (Environment.ChangesOnly names functions) (next completion)) :
    Within (Environment.ChangesOnly names functions) (step limits span work next) := by
  apply Within.followed (Keeps.checkSignal limits)
  intro _
  apply Within.followed (Keeps.countStep limits)
  intro _
  apply Within.followed (Keeps.record _)
  intro _
  apply Within.bind (fun _ _ _ => .trans) within
  intro completion
  apply Within.followed (Keeps.record _)
  intro _
  split
  · exact Within.changes (Keeps.value completion)
  · exact behind completion

mutual

-- Induction on the tree. The sets grow from a part to the whole.
theorem changes_statement : ∀ node : Node, node.IsStatement →
    Within (Environment.ChangesOnly (Lint.assigned node) node.functions)
      (statement limits enter node)
  | .declaration _ name parameters body, _ =>
      fun machine => .define machine.environment ⟨name, parameters, body⟩
  | .giveBack _ value, isFormula =>
      Within.changes (Keeps.bind (Keeps.ofFormula value isFormula) fun _ => Keeps.value _)
  | .conditional _ condition body alternative, ⟨isFormula, isBody, isAlternative⟩ => by
      have chosen := changes_body body isBody
      have refused := changes_alternative alternative isAlternative
      simp only [statement]
      apply Within.followed (Keeps.ofFormula condition isFormula)
      intro value
      cases value.truth? with
      | none => exact Within.changes (Keeps.fail _ _)
      | some truth =>
          cases truth with
          | true =>
              exact chosen.mono (List.subset_append_left ..) (List.subset_append_left ..)
          | false =>
              exact refused.mono (List.subset_append_right ..) (List.subset_append_right ..)
  | .unary _ _ operand, ⟨printing, isFormula⟩ => by
      subst printing
      exact Within.changes (Keeps.bind (keeps_print isFormula) fun _ => Keeps.value _)
  | .binary _ _ _ _, .inl ⟨assigns, _, rightFormula⟩ => by
      subst assigns
      exact Within.bind (fun _ _ _ => .trans) (changes_assignment rightFormula)
        fun value => Within.changes (Keeps.value (Completion.normal value))
  | .binary _ _ _ _, .inr isFormula => changes_formula isFormula
  | .number _ _, isFormula => changes_formula isFormula
  | .string _ _, isFormula => changes_formula isFormula
  | .reference _ _, isFormula => changes_formula isFormula
  | .call _ _ _, isFormula => changes_formula isFormula

theorem changes_alternative : ∀ node : Option Node, Node.IsAlternative node →
    Within (Environment.ChangesOnly (Lint.assignedInAlternative node) (Node.functionsOfOption node))
      (otherwise limits enter node)
  | none, _ => Within.changes (Keeps.value _)
  | some (.conditional span condition body alternative), isAlternative =>
      changes_statement (.conditional span condition body alternative) isAlternative
  | some (.block (.mk _ nodes)), areStatements => changes_statements _ nodes areStatements

theorem changes_statements (last : Completion) : ∀ nodes : List Node, Node.AreStatements nodes →
    Within (Environment.ChangesOnly (Lint.assignedInAll nodes) (Node.functionsOfAll nodes))
      (statements limits enter last nodes)
  | [], _ => Within.changes (Keeps.value last)
  | node :: nodes, ⟨isStatement, areStatements⟩ => by
      have here := changes_statement node isStatement
      have behind := fun completion => changes_statements completion nodes areStatements
      rw [statements_cons]
      apply changes_step
      · exact here.mono (List.subset_append_left ..) (List.subset_append_left ..)
      · intro completion
        exact (behind completion).mono (List.subset_append_right ..) (List.subset_append_right ..)

theorem changes_body : ∀ body : Option Block, Block.IsBody body →
    Within (Environment.ChangesOnly (Lint.assignedInOptional body) (Block.functionsOfOption body))
      (optionalBlock limits enter body)
  | some (.mk _ nodes), areStatements => changes_statements _ nodes areStatements

end

theorem changes_part {node : Node} (isPart : node.IsPart) :
    Within (Environment.ChangesOnly (Lint.assigned node) node.functions)
      (statement limits enter node) := by
  rcases isPart with isStatement | ⟨body, rfl, isBody⟩
  · exact changes_statement node isStatement
  · exact changes_body (some body) isBody

/-- A statement that is no declaration and holds no other statements. -/
def isSimple : Node → Bool
  | .declaration .. | .conditional .. | .block .. => false
  | _ => true

theorem environment_of_failed {node : Node} (isStatement : node.IsStatement)
    (simple : isSimple node = true) {machine after : Machine} {halt : Halt}
    (failed : statement limits enter node machine = .error halt after) :
    after.environment = machine.environment := by
  have ofFormula {formula : Node} (isFormula : formula.IsFormula)
      (failed : (expression limits enter formula >>= fun value => pure (Completion.normal value))
        machine = .error halt after) : after.environment = machine.environment :=
    (Keeps.bind (Keeps.ofFormula formula isFormula) fun _ => Keeps.value _).of_error failed
  cases node with
  | number | string | reference | call => exact ofFormula isStatement failed
  | giveBack span value =>
      exact (Keeps.bind (Keeps.ofFormula value isStatement) fun _ => Keeps.value _).of_error failed
  | unary span operator operand =>
      obtain ⟨rfl, isFormula⟩ := isStatement
      exact (Keeps.bind (keeps_print isFormula) fun _ => Keeps.value _).of_error failed
  | binary span operator left right =>
      rcases isStatement with ⟨rfl, _, rightFormula⟩ | isFormula
      · -- The assignment comes last, so where the statement fails it has not been made.
        rcases error_of_bind failed with failed | ⟨_, _, _, failed⟩
        · simp only [expression, if_true] at failed
          cases left with
          | reference place name =>
              rcases error_of_bind failed with failed | ⟨_, _, _, failed⟩
              · exact (Keeps.ofFormula right rightFormula).of_error failed
              · cases failed
          | _ => exact (Keeps.fail _ _).of_error failed
        · cases failed
      · exact ofFormula isFormula failed
  | program => exact isStatement.elim
  | declaration | conditional | block => contradiction

theorem environment_of_failed_step {node : Node} (isStatement : node.IsStatement)
    (simple : isSimple node = true) {last : Completion} {machine after : Machine} {halt : Halt}
    (failed : statements limits enter last [node] machine = .error halt after) :
    after.environment = machine.environment := by
  rw [statements_cons] at failed
  have ways := step_stepped limits node.span (statement limits enter node)
    (statements limits enter · []) machine
  generalize step limits node.span _ _ machine = result at ways failed
  cases ways with
  | stopped =>
      cases failed
      rfl
  | refused =>
      cases failed
      rfl
  | failed _ _ ended =>
      cases failed
      exact (environment_of_failed isStatement simple ended :)
  | returned => cases failed
  | wentOn => cases failed

end Evaluation

theorem Program.run_changesOnly {program : Program} (wellFormed : program.WellFormed)
    (environment : Environment) (setup : Setup) :
    environment.ChangesOnly (Lint.assignedInAll program.statements)
      (Node.functionsOfAll program.statements) (program.run environment setup).environment := by
  obtain ⟨span, body⟩ := program
  cases body with
  | none => exact wellFormed.elim
  | some block =>
      obtain ⟨place, nodes⟩ := block
      have changes := @Evaluation.changes_statements setup.limits
        (Evaluation.invoke setup.limits (setup.limits.nesting setup.capacity)) (.normal .nothing)
        nodes wellFormed
      have left := changes (Program.start ⟨span, some (.mk place nodes)⟩ environment setup)
      rw [Program.run_eq, Program.runWithin, Report.of_environment]
      exact left

end Parlance
