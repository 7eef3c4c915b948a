import Parlance.Proofs.Grammar.Places
import Parlance.Proofs.Run.Path
import Parlance.Proofs.Run.Safety

namespace Parlance

/-!
Strings and lines. A string literal holds neither a quote nor a newline, nothing
that is computed from strings brings one in, and no other value has one in its
text. So every print writes one line.
-/

/-- A value, and not a string with a quote or a newline in it. -/
def Value.IsPlain : Value → Prop
  | .str text => Text.quote ∉ text ∧ Text.newline ∉ text
  | .absent => False
  | _ => True

/-- Only the quotes around a text are dropped. -/
theorem Evaluation.unquoted_quoted {text : Text} (plain : Text.quote ∉ text) :
    unquoted (Text.quoted text) = text := by
  have kept : text.filter (· != Text.quote) = text := by
    rw [List.filter_eq_self]
    intro b member
    have other : b ≠ Text.quote := fun same => plain (same ▸ member)
    simpa using other
  simp [unquoted, Text.quoted, kept]

namespace Value

theorem inherited_plain : Inherited IsPlain where
  present {value} isPlain := by
    rintro rfl
    exact isPlain
  nothing := trivial
  int _ := trivial
  literal {raw} isRaw := by
    obtain ⟨text, rfl, inLine⟩ := isRaw
    have plain : Text.quote ∉ text := fun quote => absurd (inLine _ quote) (by decide)
    rw [Evaluation.unquoted_quoted plain]
    exact ⟨plain, fun newline => absurd (inLine _ newline) (by decide)⟩
  applied {operator left right value} hasLeft hasRight applied := by
    revert applied
    fun_cases Operator.apply operator left right <;> rintro ⟨⟩ <;> first
      | trivial
      | -- Strings are only put together.
        exact ⟨fun member => (List.mem_append.mp member).elim hasLeft.1 hasRight.1,
          fun member => (List.mem_append.mp member).elim hasLeft.2 hasRight.2⟩

theorem newline_not_mem_ofInt (value : Int) : Text.newline ∉ Text.ofInt value := by
  have digits (value : Nat) : Text.newline ∉ Text.ofNat value := fun newline =>
    absurd ((Text.isNumeral_ofNat value).2 _ newline) (by decide)
  cases value with
  | ofNat value => exact digits value
  | negSucc value =>
      rw [Text.ofInt, List.mem_cons, not_or]
      exact ⟨by decide, digits _⟩

theorem newline_not_mem_text {value : Value} (isPlain : value.IsPlain) {text : Text}
    (shown : value.text? = some text) : Text.newline ∉ text := by
  cases value with
  | int value =>
      cases shown
      exact newline_not_mem_ofInt value.toInt
  | str text =>
      cases shown
      exact isPlain.2
  | bool value =>
      cases shown
      cases value <;> decide
  | nothing =>
      cases shown
      decide
  | absent => cases shown

end Value

theorem Machine.Sound.started {holds : Value → Prop} {machine : Machine}
    (sound : machine.Sound holds) {span : Span} :
    (machine.started span).Sound holds :=
  ⟨sound.environment, List.forall_mem_cons.mpr ⟨trivial, sound.events⟩⟩

namespace Evaluation

variable {α : Type} {holds : Value → Prop} {limits : Limits}

theorem Safe.of_ok {kind : α → Prop} {work : Eval α} (safe : Safe holds kind work)
    {machine after : Machine} (sound : machine.Sound holds) {result : α}
    (ended : work machine = .ok result after) : kind result ∧ after.Sound holds := by
  have lands := safe machine sound
  rw [ended] at lands
  cases lands with
  | ok isKind sound' => exact ⟨isKind, sound'⟩

/-- The task is one of a well-formed program. -/
def Task.Sound (holds : Value → Prop) : Task → Prop
  | .expression node => node.IsStatement
  | .arguments nodes => Node.AreFormulas nodes
  | .statement node => node.IsPart
  | .statements last nodes => holds last.value ∧ Node.AreStatements nodes
  | .body block | .invocation block => Block.IsBody block

structure Visit.Sound (holds : Value → Prop) (visit : Visit) : Prop where
  machine : visit.machine.Sound holds
  task : visit.task.Sound holds

variable {whole inner visit : Visit} {opening : Opening}

/-- From a sound place an evaluation turns to sound places only. -/
theorem Part.sound (inherited : Value.Inherited holds) (part : Part limits whole opening inner)
    (sound : whole.Sound holds) : inner.Sound holds := by
  have upholds := fun nesting => invoke_upholds inherited limits nesting
  have operands {span : Span} {operator : Operator} {left right : Node}
      (isStatement : Node.IsStatement (.binary span operator left right)) :
      left.IsFormula ∧ right.IsFormula := by
    rcases isStatement with ⟨_, formulas⟩ | ⟨_, formulas⟩ <;> exact formulas
  obtain ⟨machineSound, task⟩ := sound
  cases part with
  | left =>
      have isFormula := (operands task).1
      exact ⟨machineSound, Derivation.isStatement_of_isFormula isFormula⟩
  | @right _ _ _ span operator left right _ _ evaluated =>
      obtain ⟨leftFormula, rightFormula⟩ : left.IsFormula ∧ right.IsFormula := operands task
      have after := ((upholds _).expression left leftFormula).of_ok machineSound evaluated
      exact ⟨after.2, Derivation.isStatement_of_isFormula rightFormula⟩
  | assigned =>
      have isFormula := (operands task).2
      exact ⟨machineSound, Derivation.isStatement_of_isFormula isFormula⟩
  | arguments => exact ⟨machineSound, task.2⟩
  | @called _ _ _ _ _ nodes function _ found _ evaluated =>
      obtain ⟨isName, areFormulas⟩ := task
      obtain ⟨each, after⟩ :=
        ((upholds _).expressions nodes areFormulas).of_ok machineSound evaluated
      obtain ⟨_, _, _, isBody⟩ := (machineSound.environment.function? found).2
      refine ⟨⟨after.environment.bind function.parameters each, ?_⟩, isBody⟩
      exact List.forall_mem_cons.mpr ⟨isName, after.events⟩
  | invoked => exact ⟨machineSound, task⟩
  | argument => exact ⟨machineSound, Derivation.isStatement_of_isFormula task.1⟩
  | @moreArguments _ _ _ node _ _ evaluated =>
      have after := ((upholds _).expression node task.1).of_ok machineSound evaluated
      exact ⟨after.2, task.2⟩
  | formula isFormula =>
      refine ⟨machineSound, Node.IsPart.isStatement task ?_⟩
      rintro body rfl
      contradiction
  | printed =>
      have isStatement := Node.IsPart.isStatement task (by simp)
      exact ⟨machineSound, Derivation.isStatement_of_isFormula isStatement.2⟩
  | given =>
      have isStatement := Node.IsPart.isStatement task (by simp)
      exact ⟨machineSound, Derivation.isStatement_of_isFormula isStatement⟩
  | block =>
      obtain isStatement | ⟨_, same, isBody⟩ := task
      · exact isStatement.elim
      · cases same
        exact ⟨machineSound, isBody⟩
  | condition =>
      have isStatement := Node.IsPart.isStatement task (by simp)
      exact ⟨machineSound, Derivation.isStatement_of_isFormula isStatement.1⟩
  | @chosen _ _ _ _ condition _ _ _ evaluated =>
      obtain ⟨isFormula, isBody, _⟩ := Node.IsPart.isStatement task (by simp)
      have after := ((upholds _).expression condition isFormula).of_ok machineSound evaluated
      exact ⟨after.2, isBody⟩
  | @alternative _ _ _ _ condition node _ _ evaluated =>
      obtain ⟨isFormula, _, isAlternative⟩ := Node.IsPart.isStatement task (by simp)
      have after := ((upholds _).expression condition isFormula).of_ok machineSound evaluated
      exact ⟨after.2, Node.isPart_of_mem_alternative _ isAlternative node node.mem_parts⟩
  | first =>
      obtain ⟨_, isStatement, _⟩ := task
      exact ⟨machineSound.started, .inl isStatement⟩
  | @next _ _ _ _ _ node _ _ _ evaluated =>
      obtain ⟨_, isStatement, areStatements⟩ := task
      have after := ((upholds _).statement node isStatement).of_ok machineSound.started evaluated
      exact ⟨after.2.recorded trivial, after.1, areStatements⟩
  | inside => exact ⟨machineSound, inherited.nothing, task⟩

theorem Visits.sound (inherited : Value.Inherited holds) (visits : Visits limits whole visit)
    (sound : whole.Sound holds) : visit.Sound holds := by
  induction visits with
  | here => exact sound
  | part part _ inductionHypothesis => exact inductionHypothesis (part.sound inherited sound)

/-- What is printed is a value of the inherited kind, whether or not it can be written. -/
theorem Visit.Sound.printed (inherited : Value.Inherited holds) {nesting : Nat} {span : Span}
    {operand : Node} {machine after : Machine} {value : Value}
    (sound : Visit.Sound holds ⟨nesting, .statement (.unary span .print operand), machine⟩)
    (evaluated : expression limits (invoke limits nesting) operand machine = .ok value after) :
    holds value := by
  have isStatement := Node.IsPart.isStatement sound.task (by simp)
  have safe : Safe holds holds (expression limits (invoke limits nesting) operand) :=
    (invoke_upholds inherited limits nesting).expression operand isStatement.2
  exact (safe.of_ok sound.machine evaluated).1

end Evaluation

open Evaluation

namespace Program

variable {program : Program} {environment : Environment}

theorem written_eq_lines (program : Program) (environment : Environment) (setup : Setup) :
    (program.run environment setup).written =
      (program.run environment setup).events.filterMap Event.line? := by
  have trail := invoke_traced setup.limits (setup.limits.nesting setup.capacity + 1) program.body
    (program.start environment setup)
  change Trail _ _ (program.result _ _ _) at trail
  obtain ⟨log, logged⟩ : ∃ log, (program.start environment setup).Logged setup.limits
      (final (program.result setup.limits (setup.limits.nesting setup.capacity)
        (program.start environment setup))) log := by
    generalize program.result _ _ _ = result at trail
    cases trail with
    | ok finished => exact ⟨_, finished.toLogged⟩
    | error logged => exact ⟨_, logged⟩
  rw [run_eq, runWithin, written_of_logged logged, events_of_logged logged,
    List.filterMap_cons_none rfl, List.filterMap_append]
  exact (List.append_nil _).symm

theorem visit_sound {holds : Value → Prop} (wellFormed : program.WellFormed)
    (sound : environment.Sound holds) (setup : Setup) :
    (program.visit environment setup).Sound holds :=
  ⟨⟨sound, List.forall_mem_singleton.mpr trivial⟩, wellFormed⟩

theorem line_of_mem_written (wellFormed : program.WellFormed)
    (sound : environment.Sound Value.IsPlain) (setup : Setup) {line : Text}
    (member : line ∈ (program.run environment setup).written) :
    ∃ text, line = text ++ [Text.newline] ∧ Text.newline ∉ text := by
  rw [written_eq_lines] at member
  obtain ⟨event, recorded, same⟩ := List.mem_filterMap.mp member
  cases event with
  | print span text =>
      obtain ⟨nesting, operand, machine, value, after, visits, evaluated, shown⟩ :=
        prints_of_mem_events recorded
      have place := visits.sound Value.inherited_plain (visit_sound wellFormed sound setup)
      have isPlain := place.printed Value.inherited_plain evaluated
      exact ⟨text, (Option.some.inj same).symm, Value.newline_not_mem_text isPlain shown⟩
  | _ => contradiction

end Program

theorem Text.count_newline_flatten {lines : List Text}
    (each : ∀ line ∈ lines, ∃ text, line = text ++ [newline] ∧ newline ∉ text) :
    lines.flatten.count newline = lines.length := by
  induction lines with
  | nil => rfl
  | cons line lines inductionHypothesis =>
      rw [List.forall_mem_cons] at each
      obtain ⟨⟨text, rfl, plain⟩, each⟩ := each
      rw [List.flatten_cons, List.count_append, inductionHypothesis each, List.count_append,
        List.count_eq_zero.mpr plain]
      simp [Nat.add_comm]

/-- Whatever source texts a session is asked to run, however its runs end and however often it is
reset: no string that it has bound, that one of its runs comes to, that is bound anywhere in the
course of a run or that gets to a print has a quote or a newline in it. The value of a string
literal is what stands in the source between its two quotes. Each print that succeeds writes a line
that ends in its only newline, so the output has as many newlines as there are prints in the
trace. -/
theorem Session.run_strings_plain (limits : Limits) (capacity : Nat) (requests : List Request) :
    let session := (Session.start limits capacity).serveAll requests
    (∀ entry ∈ session.environment.bindings.entries, entry.2.IsPlain) ∧
    ∀ outlet signal file source report, (session.run outlet signal file source).1 = .ok report →
      (∀ completion, report.outcome = .ok completion → completion.value.IsPlain) ∧
      (∀ line ∈ report.written, ∃ text, line = text ++ [Text.newline] ∧ Text.newline ∉ text) ∧
      report.written.length = report.events.countP Event.isPrint ∧
      report.output.count Text.newline = report.events.countP Event.isPrint ∧
      ∃ program, parse file source = .ok program ∧
        (∀ span raw, .string span raw ∈ program.parts → ∃ front text behind,
          source = front ++ Text.quoted text ++ behind ∧
          span = ⟨file, .after front, .after (front ++ Text.quoted text)⟩ ∧
          ∀ limits enter, expression limits enter (.string span raw) = pure (.str text)) ∧
        ∀ visit, Visits limits (program.visit session.environment
            ⟨limits, outlet, signal, capacity⟩) visit →
          (∀ entry ∈ visit.machine.environment.bindings.entries, entry.2.IsPlain) ∧
          ∀ span operand value after, visit.task = .statement (.unary span .print operand) →
            expression limits (invoke limits visit.nesting) operand visit.machine =
              .ok value after → value.IsPlain := by
  intro session
  have sound : session.environment.Sound Value.IsPlain :=
    serveAll_sound Value.inherited_plain .empty requests
  obtain ⟨environment, served⟩ := (Session.start limits capacity).serveAll_eq requests
  have sameLimits : session.limits = limits := congrArg Session.limits served
  have sameCapacity : session.capacity = capacity := congrArg Session.capacity served
  refine ⟨sound.bindings, fun outlet signal file source report ran => ?_⟩
  have safe := (run_sound Value.inherited_plain sound outlet signal file source).2 report ran
  cases accepted : parse file source with
  | error error =>
      rw [session.run_of_refused outlet signal accepted] at ran
      cases ran
  | ok program =>
      rw [session.run_of_parse outlet signal accepted, sameLimits, sameCapacity] at ran
      obtain rfl := Except.ok.inj ran
      have wellFormed := wellFormed_of_parse accepted
      let setup : Setup := ⟨limits, outlet, signal, capacity⟩
      have lines := fun line => @Program.line_of_mem_written program session.environment wellFormed
        sound setup line
      have prints : (program.run session.environment setup).written.length =
          (program.run session.environment setup).events.countP Event.isPrint := by
        rw [Program.written_eq_lines]
        exact Event.length_lines _
      refine ⟨fun completion => safe.value, lines, prints,
        (Text.count_newline_flatten lines).trans prints, program, rfl, fun span raw member => ?_,
        fun visit visits => ?_⟩
      · obtain ⟨front, text, behind, rfl, whole, place, plain, _⟩ := string_of_parse accepted member
        refine ⟨front, text, behind, whole, place, fun limits enter => ?_⟩
        rw [expression, unquoted_quoted plain]
      · have place := visits.sound Value.inherited_plain
          (Program.visit_sound wellFormed sound setup)
        refine ⟨place.machine.environment.bindings,
          fun span operand value after same evaluated => ?_⟩
        obtain ⟨nesting, task, machine⟩ := visit
        obtain rfl : task = _ := same
        exact place.printed Value.inherited_plain evaluated

/-- The first run binds a string and then fails; the second puts it together with another one. -/
theorem Session.run_strings_plain_joined :
    let binding : Program := ⟨.blank, some (.mk .blank [
      .binary .blank .assign (.reference .blank (utf8 "s")) (.string .blank (utf8 "'a'")),
      .reference .blank (utf8 "z")])⟩
    let printing : Program := ⟨.blank, some (.mk .blank [.unary .blank .print
      (.binary .blank .add (.reference .blank (utf8 "s")) (.string .blank (utf8 "' b'")))])⟩
    let session := (Session.start .none 50).serveAll [.run .unlimited .live [] binding.format]
    ∃ report, (session.run .unlimited .live [] printing.format).1 = .ok report ∧
      report.written = [utf8 "a b\n"] ∧
      report.output.count Text.newline = report.events.countP Event.isPrint ∧
      ∀ line ∈ report.written, ∃ text, line = text ++ [Text.newline] ∧ Text.newline ∉ text := by
  intro binding printing session
  obtain ⟨program, accepted, same⟩ := parse_format [] (show binding.WellFormed by decide +kernel)
  obtain ⟨program', accepted', same'⟩ :=
    parse_format [] (show printing.WellFormed by decide +kernel)
  let setup := Setup.standard .none 50
  have bound := Program.run_alike same.symm
    (show Environment.empty.erased = Environment.empty.erased from rfl) setup
  have printed := Program.run_alike same'.symm bound.environment setup
  have served : session = ⟨(program.run .empty setup).environment, .none, 50⟩ :=
    congrArg Prod.snd ((Session.start .none 50).run_of_parse .unlimited .live accepted)
  have ran : (session.run .unlimited .live [] printing.format).1 =
      .ok (program'.run (program.run .empty setup).environment setup) := by
    rw [served]
    exact congrArg Prod.fst (run_of_parse _ .unlimited .live accepted')
  have written : (printing.run (binding.run .empty setup).environment setup).written =
      [utf8 "a b\n"] := by decide +kernel
  obtain ⟨_, runs⟩ := run_strings_plain .none 50 [.run .unlimited .live [] binding.format]
  obtain ⟨_, lines, _, newlines, _⟩ := runs _ _ _ _ _ ran
  exact ⟨_, ran, printed.written.symm.trans written, newlines, lines⟩

end Parlance
