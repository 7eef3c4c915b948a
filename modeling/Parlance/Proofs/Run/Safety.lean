import Parlance.Proofs.Run.Formatting
import Parlance.Proofs.Run.Termination

namespace Parlance

/-!
Runs of well-formed programs. Only trees that have a source text get into a
session, as programs or as the bodies of functions, so evaluation meets no node
that is no value and no operator that it does not know. What literals have and
operators keep holds of every value that such programs compute.
-/

theorem Table.mem_of_findEntry {α : Type} {key : Text} {value : α} {entries : List (Text × α)}
    (found : findEntry key entries = some value) : (key, value) ∈ entries := by
  induction entries with
  | nil => contradiction
  | cons entry rest inductionHypothesis =>
      unfold findEntry at found
      split at found
      · next same =>
          cases found
          rw [same]
          exact List.mem_cons_self
      · exact List.mem_cons_of_mem _ (inductionHypothesis found)

/-- Only what is absent has no text. -/
theorem Value.eq_absent_of_text? {value : Value} (unshown : value.text? = none) : value = .absent := by
  cases value with
  | absent => rfl
  | _ => contradiction

/-- A property that the values of well-formed programs inherit: literals have it
and operators keep it. A value that is absent does not. -/
structure Value.Inherited (holds : Value → Prop) : Prop where
  present {value : Value} : holds value → value ≠ .absent
  nothing : holds .nothing
  int (value : Int64) : holds (.int value)
  literal {raw : Text} : Text.IsRawString raw → holds (.str (Evaluation.unquoted raw))
  applied {operator : Operator} {left right value : Value} :
    holds left → holds right → operator.apply left right = .ok value → holds value

/-- A function that a well-formed declaration declares. -/
def Function.WellFormed (function : Function) : Prop :=
  Node.IsStatement (.declaration .blank function.name function.parameters function.body)

/-- Every bound value has the property, and every function is well-formed and
stored under its own name. -/
structure Environment.Sound (holds : Value → Prop) (environment : Environment) : Prop where
  bindings : ∀ entry ∈ environment.bindings.entries, holds entry.2
  functions : ∀ entry ∈ environment.functions.entries, entry.2.name = entry.1 ∧ entry.2.WellFormed

namespace Environment.Sound

variable {holds : Value → Prop} {environment : Environment}

theorem empty : Environment.empty.Sound holds :=
  ⟨nofun, nofun⟩

theorem get? (sound : environment.Sound holds) {name : Text} {value : Value}
    (found : environment.get? name = some value) : holds value :=
  sound.bindings _ (Table.mem_of_findEntry found)

theorem function? (sound : environment.Sound holds) {name : Text} {function : Function}
    (found : environment.function? name = some function) :
    function.name = name ∧ function.WellFormed :=
  sound.functions _ (Table.mem_of_findEntry found)

theorem set (sound : environment.Sound holds) (name : Text) {value : Value} (has : holds value) :
    (environment.set name value).Sound holds where
  bindings entry member := by
    rcases Table.mem_insertEntry member with rfl | inside
    · exact has
    · exact sound.bindings entry inside
  functions := sound.functions

theorem define (sound : environment.Sound holds) {function : Function}
    (wellFormed : function.WellFormed) : (environment.define function).Sound holds where
  bindings := sound.bindings
  functions entry member := by
    rcases Table.mem_insertEntry member with rfl | inside
    · exact ⟨rfl, wellFormed⟩
    · exact sound.functions entry inside

theorem bind (sound : environment.Sound holds) (names : List Text) {values : List Value}
    (each : ∀ value ∈ values, holds value) : (environment.bind names values).Sound holds := by
  induction names generalizing environment values with
  | nil => exact sound
  | cons name names inductionHypothesis =>
      cases values with
      | nil => exact sound
      | cons value values =>
          rw [List.forall_mem_cons] at each
          exact inductionHypothesis (sound.set name each.1) each.2

end Environment.Sound

/-- The functions that an event names have names. -/
def Event.Named : Event → Prop
  | .callStart _ function _ | .callEnd _ function _ => Text.IsName function
  | _ => True

/-- What every machine has on which a well-formed program is run. -/
structure Machine.Sound (holds : Value → Prop) (machine : Machine) : Prop where
  environment : machine.environment.Sound holds
  events : ∀ event ∈ machine.events, event.Named

theorem Machine.Sound.recorded {holds : Value → Prop} {machine : Machine}
    (sound : machine.Sound holds) {event : Event} (named : event.Named) :
    Machine.Sound holds { machine with events := event :: machine.events } :=
  ⟨sound.environment, List.forall_mem_cons.mpr ⟨named, sound.events⟩⟩

abbrev Completion.Has (holds : Value → Prop) (completion : Completion) : Prop :=
  holds completion.value

/-- Not a fault of the evaluation itself. -/
def Halt.Ordinary : Halt → Prop
  | .fault reason => reason.code ≠ .internal
  | .overflow => True

namespace Evaluation

variable {α β : Type} {holds : Value → Prop} {limits : Limits} {enter : Enter}

/-- Ended on a sound machine, with a result of the given kind or an ordinary halt. -/
inductive Lands (holds : Value → Prop) (kind : α → Prop) :
    EStateM.Result Halt Machine α → Prop where
  | ok {result : α} {after : Machine} (isKind : kind result) (sound : after.Sound holds) :
      Lands holds kind (.ok result after)
  | error {halt : Halt} {after : Machine} (ordinary : halt.Ordinary) (sound : after.Sound holds) :
      Lands holds kind (.error halt after)

def Safe (holds : Value → Prop) (kind : α → Prop) (work : Eval α) : Prop :=
  ∀ machine : Machine, machine.Sound holds → Lands holds kind (work machine)

namespace Safe

theorem value {kind : α → Prop} {result : α} (isKind : kind result) :
    Safe holds kind (pure result) :=
  fun _ sound => .ok isKind sound

theorem stop (kind : α → Prop) {halt : Halt} (ordinary : halt.Ordinary) :
    Safe holds kind (throw halt : Eval α) :=
  fun _ sound => .error ordinary sound

theorem fail (kind : α → Prop) {cause : Cause} (span : Span) (ordinary : cause.code ≠ .internal) :
    Safe holds kind (Machine.fail cause span : Eval α) :=
  stop kind ordinary

theorem bind {first : Eval α} {next : α → Eval β} {kind : α → Prop} {kind' : β → Prop}
    (safe : Safe holds kind first)
    (behind : ∀ result, kind result → Safe holds kind' (next result)) :
    Safe holds kind' (first >>= next) := by
  intro machine sound
  have lands := safe machine sound
  generalize ended : first machine = result at lands
  cases lands with
  | ok isKind sound' =>
      rw [bind_of_ok ended]
      exact behind _ isKind _ sound'
  | error ordinary sound' =>
      rw [bind_of_error ended]
      exact .error ordinary sound'

theorem record {event : Event} (named : event.Named) :
    Safe holds (fun _ => True) (Machine.record event) :=
  fun _ sound => .ok trivial (sound.recorded named)

theorem checkSignal (limits : Limits) : Safe holds (fun _ => True) (Machine.checkSignal limits) := by
  intro machine sound
  cases asked : machine.stop? limits with
  | none =>
      rw [Machine.checkSignal_of_live asked]
      exact .ok trivial sound
  | some cause =>
      rw [Machine.checkSignal_of_stopped asked]
      have ordinary : cause.code ≠ .internal := by
        rcases Machine.code_of_stopped asked with code | code <;> rw [code] <;> nofun
      exact .error ordinary sound

theorem countStep (limits : Limits) : Safe holds (fun _ => True) (Machine.countStep limits) := by
  intro machine sound
  have stepped : machine.stepped.Sound holds := ⟨sound.environment, sound.events⟩
  cases allowed : limits.allowsSteps (machine.steps + 1) with
  | true =>
      rw [Machine.countStep_of_allowed allowed]
      exact .ok trivial stepped
  | false =>
      rw [Machine.countStep_of_refused allowed]
      exact .error (nofun : Code.budget ≠ .internal) stepped

theorem print (span : Span) (text : Text) : Safe holds (fun _ => True) (print span text) := by
  intro machine sound
  unfold Evaluation.print
  by_cases full : machine.outlet.room = some 0
  · rw [bind_of_error (Machine.write_of_full span text full)]
    exact .error (nofun : Code.io ≠ .internal) sound
  · rw [bind_of_ok (Machine.write_of_room span text full)]
    have wrote : (machine.wrote (text ++ [Text.newline])).Sound holds :=
      ⟨sound.environment, sound.events⟩
    exact .ok trivial (wrote.recorded (trivial : (Event.print span text).Named))

theorem lookup (name : Text) (span : Span) : Safe holds holds (Machine.lookup name span) := by
  intro machine sound
  cases found : machine.environment.get? name with
  | some value =>
      rw [Machine.lookup_of_some span found]
      exact .ok (sound.environment.get? found) sound
  | none =>
      rw [Machine.lookup_of_none span found]
      exact .error (nofun : Code.undefinedVariable ≠ .internal) sound

theorem assign (name : Text) {value : Value} (has : holds value) :
    Safe holds (fun _ => True) (Machine.assign name value) :=
  fun _ sound => .ok trivial ⟨sound.environment.set name has, sound.events⟩

theorem define {function : Function} (wellFormed : function.WellFormed) :
    Safe holds (fun _ => True) (Machine.define function) :=
  fun _ sound => .ok trivial ⟨sound.environment.define wellFormed, sound.events⟩

theorem resolve (name : Text) (span : Span) {kind : α → Prop} {use : Function → Eval α}
    (behind : ∀ function, function.WellFormed → Safe holds kind (use function)) :
    Safe holds kind (resolve name span use) := by
  intro machine sound
  cases found : machine.environment.function? name with
  | some function =>
      rw [resolve_of_some span use found]
      exact behind function (sound.environment.function? found).2 machine sound
  | none =>
      rw [resolve_of_none span use found]
      exact .error (nofun : Code.undefinedFunction ≠ .internal) sound

/-- A call goes back to the bindings of its caller, whatever its body did. -/
theorem call (entering : ∀ body, Block.IsBody body →
      Safe holds (Completion.Has holds) (enter body))
    (span : Span) {function : Function} (wellFormed : function.WellFormed) {name : Text}
    (isName : Text.IsName name) {arguments : List Value} (each : ∀ value ∈ arguments, holds value) :
    Safe holds holds (Machine.call limits enter span function name arguments) := by
  intro machine sound
  cases allowed : limits.allowsDepth (machine.depth + 1) with
  | true =>
      rw [Machine.call_of_allowed enter span function name arguments allowed]
      have entered : (machine.entered span function name arguments).Sound holds :=
        ⟨sound.environment.bind function.parameters each,
          List.forall_mem_cons.mpr ⟨isName, sound.events⟩⟩
      -- Of the machine that the body leaves, only the events are kept.
      have left {after : Machine} (inside : after.Sound holds) :
          (machine.left span name after).Sound holds :=
        ⟨sound.environment, List.forall_mem_cons.mpr ⟨isName, inside.events⟩⟩
      have lands := entering function.body wellFormed.2.2.2 _ entered
      generalize enter function.body _ = result at lands ⊢
      cases lands with
      | ok has inside => exact .ok has (left inside)
      | error ordinary inside => exact .error ordinary (left inside)
  | false =>
      rw [Machine.call_of_refused enter span function name arguments allowed]
      exact .error (nofun : Code.budget ≠ .internal) ⟨sound.environment, sound.events⟩

theorem step (span : Span) {work : Eval Completion} {next : Completion → Eval Completion}
    (safe : Safe holds (Completion.Has holds) work)
    (behind : ∀ completion, Completion.Has holds completion →
      Safe holds (Completion.Has holds) (next completion)) :
    Safe holds (Completion.Has holds) (step limits span work next) := by
  refine bind (checkSignal limits) fun _ _ => bind (countStep limits) fun _ _ =>
    bind (record trivial) fun _ _ => bind safe fun completion has =>
    bind (record trivial) fun _ _ => ?_
  split
  · exact value has
  · exact behind completion has

end Safe

/-- The operators of formulas fail for the types of their operands or for a zero. -/
theorem apply_code {operator : Operator} (binary : operator ∈ Derivation.binaryOperators)
    {left right : Value} {cause : Cause} (failed : operator.apply left right = .error cause) :
    cause.code = .type ∨ cause.code = .divisionByZero := by
  revert failed
  fun_cases Operator.apply operator left right <;> rintro ⟨⟩ <;> first
    | exact .inl rfl
    | exact .inr rfl
    | simp [Derivation.binaryOperators, Derivation.operators] at binary

/-- What bodies have to keep to so that the evaluation of a well-formed tree is safe. -/
structure Upholds (holds : Value → Prop) (enter : Enter) : Prop where
  inherited : Value.Inherited holds
  entering (body : Option Block) : Block.IsBody body →
    Safe holds (Completion.Has holds) (enter body)

namespace Upholds

mutual

theorem expression (upholds : Upholds holds enter) : ∀ node : Node, node.IsFormula →
    Safe holds holds (expression limits enter node)
  | .number _ value, _ => .value (upholds.inherited.int value)
  | .string _ raw, isRaw => .value (upholds.inherited.literal isRaw)
  | .reference span name, _ => .lookup name span
  | .call span name nodes, ⟨isName, areFormulas⟩ => by
      have argumentsSafe := upholds.expressions nodes areFormulas
      rw [expression_call]
      refine .resolve name span fun function wellFormed => ?_
      split
      · exact .bind argumentsSafe fun values each =>
          .call upholds.entering span wellFormed isName each
      · exact .fail _ span (nofun : Code.arity ≠ .internal)
  | .binary span operator left right, ⟨binary, leftFormula, rightFormula⟩ => by
      have leftSafe := upholds.expression left leftFormula
      have rightSafe := upholds.expression right rightFormula
      have noAssignment : operator ≠ .assign := by
        rintro rfl
        exact absurd binary (by decide)
      simp only [Evaluation.expression, if_neg noAssignment]
      refine .bind leftSafe fun a hasLeft => .bind rightSafe fun b hasRight => ?_
      cases applied : operator.apply a b with
      | ok value => exact .value (upholds.inherited.applied hasLeft hasRight applied)
      | error cause =>
          refine .fail _ span ?_
          rcases apply_code binary applied with code | code <;> rw [code] <;> nofun

theorem expressions (upholds : Upholds holds enter) : ∀ nodes : List Node, Node.AreFormulas nodes →
    Safe holds (fun values => ∀ value ∈ values, holds value) (expressions limits enter nodes)
  | [], _ => .value nofun
  | node :: nodes, ⟨isFormula, areFormulas⟩ =>
      .bind (upholds.expression node isFormula) fun _ has =>
        .bind (upholds.expressions nodes areFormulas) fun _ each =>
          .value (List.forall_mem_cons.mpr ⟨has, each⟩)

end

/-- A formula may stand on either side of an assignment, but only a reference is assigned to. -/
theorem assignment (upholds : Upholds holds enter) (span : Span) (left : Node) {right : Node}
    (isFormula : right.IsFormula) :
    Safe holds holds (Evaluation.expression limits enter (.binary span .assign left right)) := by
  have rightSafe : Safe holds holds (Evaluation.expression limits enter right) :=
    upholds.expression right isFormula
  simp only [Evaluation.expression, if_true]
  cases left with
  | reference _ name =>
      exact .bind rightSafe fun value has => .bind (.assign name has) fun _ _ => .value has
  | _ => exact .fail _ _ (nofun : Code.invalidTarget ≠ .internal)

theorem print (upholds : Upholds holds enter) (span : Span) {operand : Node}
    (isFormula : operand.IsFormula) :
    Safe holds (fun _ => True) (unary limits enter span .print operand) := by
  rw [unary_print]
  refine .bind (upholds.expression operand isFormula) fun value has => ?_
  refine printed_cases span value (fun unshown => ?_) fun text _ => .print span text
  exact absurd (Value.eq_absent_of_text? unshown) (upholds.inherited.present has)

/-- The value of a formula that stands as a statement. -/
theorem formula (upholds : Upholds holds enter) {node : Node} (isFormula : node.IsFormula) :
    Safe holds (Completion.Has holds)
      (Evaluation.expression limits enter node >>= fun value => pure (.normal value)) :=
  .bind (upholds.expression node isFormula) fun _ has => .value has

mutual

theorem statement (upholds : Upholds holds enter) : ∀ node : Node, node.IsStatement →
    Safe holds (Completion.Has holds) (statement limits enter node)
  | .declaration _ name parameters body, isStatement =>
      have wellFormed : Function.WellFormed ⟨name, parameters, body⟩ := isStatement
      .bind (.define wellFormed) fun _ _ => .value upholds.inherited.nothing
  | .giveBack _ value, isFormula =>
      .bind (upholds.expression value isFormula) fun _ has => .value has
  | .conditional _ condition body alternative, ⟨isFormula, isBody, isAlternative⟩ => by
      have bodySafe := upholds.optionalBlock body isBody
      have alternativeSafe := upholds.otherwise alternative isAlternative
      simp only [Evaluation.statement]
      refine .bind (upholds.expression condition isFormula) fun value _ => ?_
      match value.truth? with
      | some true => exact bodySafe
      | some false => exact alternativeSafe
      | none => exact .fail _ _ (nofun : Code.type ≠ .internal)
  | .unary span _ operand, ⟨rfl, isFormula⟩ =>
      .bind (upholds.print span isFormula) fun _ _ => .value upholds.inherited.nothing
  | .binary span _ left right, .inl ⟨rfl, _, isFormula⟩ =>
      .bind (upholds.assignment span left isFormula) fun _ has => .value has
  | .binary _ _ _ _, .inr isFormula => upholds.formula isFormula
  | .number _ _, isFormula => upholds.formula isFormula
  | .string _ _, isFormula => upholds.formula isFormula
  | .reference _ _, isFormula => upholds.formula isFormula
  | .call _ _ _, isFormula => upholds.formula isFormula

theorem otherwise (upholds : Upholds holds enter) : ∀ node : Option Node, Node.IsAlternative node →
    Safe holds (Completion.Has holds) (otherwise limits enter node)
  | none, _ => .value upholds.inherited.nothing
  | some (.conditional span condition body alternative), isAlternative =>
      upholds.statement (.conditional span condition body alternative) isAlternative
  | some (.block (.mk _ nodes)), areStatements =>
      upholds.statements (.normal .nothing) upholds.inherited.nothing nodes areStatements

theorem statements (upholds : Upholds holds enter) (last : Completion) (has : holds last.value) :
    ∀ nodes : List Node, Node.AreStatements nodes →
      Safe holds (Completion.Has holds) (statements limits enter last nodes)
  | [], _ => .value has
  | node :: nodes, ⟨isStatement, areStatements⟩ => by
      have workSafe := upholds.statement node isStatement
      have behind := fun completion has => upholds.statements completion has nodes areStatements
      rw [statements_cons]
      exact .step node.span workSafe behind

theorem optionalBlock (upholds : Upholds holds enter) : ∀ body : Option Block, Block.IsBody body →
    Safe holds (Completion.Has holds) (optionalBlock limits enter body)
  | some (.mk _ nodes), areStatements =>
      upholds.statements (.normal .nothing) upholds.inherited.nothing nodes areStatements

end

end Upholds

theorem invoke_upholds (inherited : Value.Inherited holds) (limits : Limits) (nesting : Nat) :
    Upholds holds (invoke limits nesting) := by
  refine ⟨inherited, ?_⟩
  induction nesting with
  | zero => exact fun _ _ => .stop _ trivial
  | succ nesting inductionHypothesis =>
      exact fun body isBody => Upholds.optionalBlock ⟨inherited, inductionHypothesis⟩ body isBody

end Evaluation

open Evaluation

/-- What a run of a well-formed program shows. -/
structure Report.Sound (holds : Value → Prop) (report : Report) : Prop where
  environment : report.environment.Sound holds
  value {completion : Completion} : report.outcome = .ok completion → holds completion.value
  ordinary {halt : Halt} : report.outcome = .error halt → halt.Ordinary
  events : ∀ event ∈ report.events, event.Named

theorem Report.of_sound {holds : Value → Prop} {result : EStateM.Result Halt Machine Completion}
    (lands : Lands holds (Completion.Has holds) result) (span : Span) :
    (Report.of span result).Sound holds := by
  have named {machine : Machine} (sound : machine.Sound holds) {ending : Event}
      (isNamed : ending.Named) : ∀ event ∈ (ending :: machine.events).reverse, event.Named :=
    fun event member => (sound.recorded isNamed).events event (List.mem_reverse.mp member)
  cases lands with
  | ok has sound =>
      exact ⟨sound.environment, fun same => Except.ok.inj same ▸ has, nofun,
        named sound (by trivial)⟩
  | error ordinary sound =>
      exact ⟨sound.environment, nofun, fun same => Except.error.inj same ▸ ordinary,
        named sound (by trivial)⟩

/-- A well-formed program keeps a sound environment sound and comes to a value of the inherited
kind or to an ordinary halt. -/
theorem Program.run_sound {holds : Value → Prop} (inherited : Value.Inherited holds)
    {program : Program} (wellFormed : program.WellFormed) {environment : Environment}
    (sound : environment.Sound holds) (setup : Setup) :
    (program.run environment setup).Sound holds := by
  rw [Program.run_eq]
  have started : (program.start environment setup).Sound holds :=
    ⟨sound, List.forall_mem_singleton.mpr trivial⟩
  exact Report.of_sound ((invoke_upholds inherited setup.limits _).optionalBlock program.body
    wellFormed _ started) program.span

/-- What is asked of a session. -/
inductive Session.Request where
  | run (outlet : Outlet) (signal : Signal) (file source : Text)
  | reset

namespace Session

def serve (session : Session) : Request → Session
  | .run outlet signal file source => (session.run outlet signal file source).2
  | .reset => session.reset

/-- The session behind a sequence of requests. -/
def serveAll (session : Session) (requests : List Request) : Session :=
  requests.foldl serve session

/-- A text that is no program changes nothing. -/
theorem run_of_refused (session : Session) (outlet : Outlet) (signal : Signal) {file source : Text}
    {error : SourceError} (refused : parse file source = .error error) :
    session.run outlet signal file source = (.error error, session) := by
  unfold run
  rw [refused]

variable {holds : Value → Prop} {session : Session}

theorem run_sound (inherited : Value.Inherited holds) (sound : session.environment.Sound holds)
    (outlet : Outlet) (signal : Signal) (file source : Text) :
    (session.run outlet signal file source).2.environment.Sound holds ∧
      ∀ report, (session.run outlet signal file source).1 = .ok report → report.Sound holds := by
  cases accepted : parse file source with
  | error error =>
      rw [session.run_of_refused outlet signal accepted]
      refine ⟨sound, fun report same => ?_⟩
      cases same
  | ok program =>
      rw [session.run_of_parse outlet signal accepted]
      have ran := Program.run_sound inherited (wellFormed_of_parse accepted) sound
        ⟨session.limits, outlet, signal, session.capacity⟩
      refine ⟨ran.environment, fun report same => ?_⟩
      rw [← Except.ok.inj same]
      exact ran

theorem serve_sound (inherited : Value.Inherited holds) (sound : session.environment.Sound holds)
    (request : Request) : (session.serve request).environment.Sound holds := by
  cases request with
  | run outlet signal file source => exact (run_sound inherited sound outlet signal file source).1
  | reset => exact .empty

theorem serveAll_sound (inherited : Value.Inherited holds) (sound : session.environment.Sound holds)
    (requests : List Request) : (session.serveAll requests).environment.Sound holds := by
  induction requests generalizing session with
  | nil => exact sound
  | cons request requests inductionHypothesis =>
      exact inductionHypothesis (serve_sound inherited sound request)

/-- Requests change nothing but the environment. -/
theorem serve_eq (session : Session) (request : Request) :
    ∃ environment, session.serve request = { session with environment } := by
  cases request with
  | run outlet signal file source =>
      cases accepted : parse file source with
      | error error => exact ⟨_, by rw [serve, session.run_of_refused outlet signal accepted]⟩
      | ok program => exact ⟨_, by rw [serve, session.run_of_parse outlet signal accepted]⟩
  | reset => exact ⟨_, rfl⟩

theorem serveAll_eq (session : Session) (requests : List Request) :
    ∃ environment, session.serveAll requests = { session with environment } := by
  induction requests generalizing session with
  | nil => exact ⟨_, rfl⟩
  | cons request requests inductionHypothesis =>
      obtain ⟨environment, served⟩ := session.serve_eq request
      obtain ⟨environment', served'⟩ := inductionHypothesis (session.serve request)
      exact ⟨environment', by rw [serveAll, List.foldl_cons, ← serveAll, served', served]⟩

/-- Only a run without limits runs out of room for calls. -/
theorem unbounded_of_overflow {outlet : Outlet} {signal : Signal} {file source : Text}
    {report : Report} (ran : (session.run outlet signal file source).1 = .ok report)
    (overflows : report.outcome = .error .overflow) :
    session.limits.callDepth ≤ 0 ∧ session.limits.steps ≤ 0 := by
  cases accepted : parse file source with
  | error error =>
      rw [session.run_of_refused outlet signal accepted] at ran
      cases ran
  | ok program =>
      rw [session.run_of_parse outlet signal accepted] at ran
      have same := Except.ok.inj ran
      rw [← same] at overflows
      have ends := program.run_outcome_of_bounded session.environment
        ⟨session.limits, outlet, signal, session.capacity⟩
      have unbounded : ¬ (0 < session.limits.callDepth ∨ 0 < session.limits.steps) := by
        intro bounded
        rcases ends bounded with ⟨completion, ended⟩ | ⟨reason, ended⟩
        · cases overflows.symm.trans ended
        · cases overflows.symm.trans ended
      omega

end Session

/-- No operator yields the value that is absent. -/
theorem Value.inherited_present : Value.Inherited (· ≠ .absent) where
  present := id
  nothing := nofun
  int _ := nofun
  literal _ := nofun
  applied {operator left right value} _ _ applied := by
    revert applied
    fun_cases Operator.apply operator left right <;> rintro ⟨⟩ <;> nofun

theorem Code.text_ne_internal {code : Code} (other : code ≠ .internal) :
    code.text ≠ internal.text := by
  cases code with
  | internal => exact absurd rfl other
  | _ => decide

/-- Whatever source texts a session is asked to run, however often it is reset, its outlets refuse
or its runs are interrupted, and at whichever statement: no variable of it is bound to an absent
value, its functions stand under their own names with distinct parameters and a body, and no run of
it ends with an absent value or reports an internal fault. Without limits, but only then, a run may
find no room for another call, and reports nothing. -/
theorem Session.run_never_internal (limits : Limits) (capacity : Nat) (requests : List Request) :
    let session := (Session.start limits capacity).serveAll requests
    (∀ entry ∈ session.environment.bindings.entries, entry.2 ≠ .absent) ∧
    (∀ entry ∈ session.environment.functions.entries,
      entry.2.name = entry.1 ∧ entry.2.parameters.Nodup ∧ entry.2.body.isSome) ∧
    ∀ outlet signal file source report, (session.run outlet signal file source).1 = .ok report →
      (∀ completion, report.outcome = .ok completion → completion.value ≠ .absent) ∧
      (∀ halt, report.outcome = .error halt → ∀ diagnostic, halt.diagnostic? = some diagnostic →
        diagnostic.code ≠ Code.internal.text) ∧
      (∀ reason, report.outcome = .error (.fault reason) → reason.code ≠ .internal ∧
        (∀ form, reason.cause ≠ .notAValue form) ∧
        (∀ operator, reason.cause ≠ .unsupportedUnary operator) ∧
        (∀ operator, reason.cause ≠ .unknownBinary operator) ∧ reason.cause ≠ .missingValue) ∧
      (report.outcome = .error .overflow → limits.callDepth ≤ 0 ∧ limits.steps ≤ 0) := by
  intro session
  have sound : session.environment.Sound (· ≠ .absent) :=
    serveAll_sound Value.inherited_present .empty requests
  refine ⟨sound.bindings, fun entry member => ?_, ?_⟩
  · obtain ⟨sameName, _, _, distinct, isBody⟩ := sound.functions entry member
    refine ⟨sameName, distinct, ?_⟩
    cases body : entry.2.body with
    | none => rw [body] at isBody; exact isBody.elim
    | some body => rfl
  · intro outlet signal file source report ran
    have safe := (run_sound Value.inherited_present sound outlet signal file source).2 report ran
    refine ⟨fun completion => safe.value, fun halt ended diagnostic shown => ?_,
      fun reason ended => ?_, fun overflows => ?_⟩
    · have ordinary := safe.ordinary ended
      cases halt with
      | overflow => cases shown
      | fault reason =>
          cases shown
          exact Code.text_ne_internal ordinary
    · have ordinary : reason.cause.code ≠ .internal := safe.ordinary ended
      refine ⟨ordinary, fun form same => ?_, fun operator same => ?_, fun operator same => ?_,
        fun same => ?_⟩ <;> exact ordinary (by rw [same]; rfl)
    · have unbounded := unbounded_of_overflow ran overflows
      obtain ⟨environment, served⟩ := (Session.start limits capacity).serveAll_eq requests
      have sameLimits : session.limits = limits := congrArg Session.limits served
      rwa [sameLimits] at unbounded

/-- A run that fails behind a declaration leaves the function to the next run, which calls it and
fails in its body. -/
theorem Session.run_never_internal_twice :
    let unbound : Node := .reference .blank (utf8 "z")
    let declaring : Program := ⟨.blank, some (.mk .blank [
      .declaration .blank (utf8 "f") [] (some (.mk .blank [unbound])), unbound])⟩
    let calling : Program := ⟨.blank, some (.mk .blank [.call .blank (utf8 "f") []])⟩
    let session :=
      (Session.start ⟨2, 0, 0⟩ 50).serveAll [.run .unlimited .live [] declaring.format]
    ∃ report reason, (session.run .unlimited .live [] calling.format).1 = .ok report ∧
      report.deepest = 1 ∧ report.outcome = .error (.fault reason) ∧ reason.code ≠ .internal := by
  intro unbound declaring calling session
  obtain ⟨program, accepted, same⟩ := parse_format [] (show declaring.WellFormed by decide +kernel)
  obtain ⟨program', accepted', same'⟩ :=
    parse_format [] (show calling.WellFormed by decide +kernel)
  let setup := Setup.standard ⟨2, 0, 0⟩ 50
  have declared := Program.run_alike same.symm
    (show Environment.empty.erased = Environment.empty.erased from rfl) setup
  have called := Program.run_alike same'.symm declared.environment setup
  have served : session = ⟨(program.run .empty setup).environment, ⟨2, 0, 0⟩, 50⟩ :=
    congrArg Prod.snd ((Session.start ⟨2, 0, 0⟩ 50).run_of_parse .unlimited .live accepted)
  have ran : (session.run .unlimited .live [] calling.format).1 =
      .ok (program'.run (program.run .empty setup).environment setup) := by
    rw [served]
    exact congrArg Prod.fst (run_of_parse _ .unlimited .live accepted')
  obtain ⟨failed, deepest⟩ : let report := calling.run (declaring.run .empty setup).environment setup
      report.outcome.isOk = false ∧ report.deepest = 1 := by decide +kernel
  obtain ⟨_, _, runs⟩ :=
    run_never_internal ⟨2, 0, 0⟩ 50 [.run .unlimited .live [] declaring.format]
  obtain ⟨_, _, ordinary, bounded⟩ := runs _ _ _ _ _ ran
  cases ended : (program'.run (program.run .empty setup).environment setup).outcome with
  | ok completion =>
      rw [called.symm.outcome_ok ended] at failed
      cases failed
  | error halt =>
      cases halt with
      | overflow => exact absurd (bounded ended).1 (by decide)
      | fault reason =>
          exact ⟨_, reason, ran, called.deepest.symm.trans deepest, ended,
            (ordinary reason ended).1⟩

end Parlance
