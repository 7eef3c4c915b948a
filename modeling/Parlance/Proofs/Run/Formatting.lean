import Parlance.Proofs.Printing.RoundTrip
import Parlance.Proofs.Run.Agreement
import Parlance.Session

namespace Parlance

open Scanner Parlance.Derivation

/-!
Formatting keeps what a source text does. The canonical text of a program is
read back as the same tree but for places, and a run observes no place, so a
session cannot tell the two texts apart.
-/

/-- What is reported about a halt, its place apart, does not depend on places. -/
theorem Halt.diagnostic?_erased (halt : Halt) :
    halt.erased.diagnostic?.map Diagnostic.code = halt.diagnostic?.map Diagnostic.code ∧
      halt.erased.diagnostic?.map Diagnostic.message = halt.diagnostic?.map Diagnostic.message := by
  cases halt <;> exact ⟨rfl, rfl⟩

namespace Report.Alike

variable {first second : Report} (alike : first.Alike second)
include alike

theorem outcome_ok {completion : Completion} (ended : first.outcome = .ok completion) :
    second.outcome = .ok completion := by
  have same := alike.outcome
  rw [ended] at same
  match answered : second.outcome with
  | .ok other =>
      rw [answered] at same
      rw [Except.ok.inj same]
  | .error halt =>
      rw [answered] at same
      contradiction

theorem outcome_error {halt : Halt} (ended : first.outcome = .error halt) :
    ∃ other, second.outcome = .error other ∧
      other.diagnostic?.map Diagnostic.code = halt.diagnostic?.map Diagnostic.code ∧
      other.diagnostic?.map Diagnostic.message = halt.diagnostic?.map Diagnostic.message := by
  have same := alike.outcome
  rw [ended] at same
  match answered : second.outcome with
  | .ok completion =>
      rw [answered] at same
      contradiction
  | .error other =>
      rw [answered] at same
      have sameHalt : halt.erased = other.erased := Except.error.inj same
      refine ⟨other, rfl, ?_, ?_⟩
      · rw [← other.diagnostic?_erased.1, ← sameHalt, halt.diagnostic?_erased.1]
      · rw [← other.diagnostic?_erased.2, ← sameHalt, halt.diagnostic?_erased.2]

end Report.Alike

namespace Session

/-- A text that is a program is run, and the session goes on with what it left behind. -/
theorem run_of_parse (session : Session) (outlet : Outlet) (signal : Signal) {file source : Text}
    {program : Program} (accepted : parse file source = .ok program) :
    session.run outlet signal file source =
      let report := program.run session.environment
        ⟨session.limits, outlet, signal, session.capacity⟩
      (.ok report, { session with environment := report.environment }) := by
  unfold run
  rw [accepted]
  rfl

/-- A source text and its canonical form do the same in sessions that differ at most in the places
of their functions: they write the same lines, end with the same value or a fault of the same code
and message after the same steps and calls, and leave the same environment but for places. -/
theorem run_format {session other : Session} (limits : session.limits = other.limits)
    (capacities : session.capacity = other.capacity)
    (environments : session.environment.erased = other.environment.erased)
    (outlet : Outlet) (signal : Signal) (file file' : Text) {source : Text} {program : Program}
    (accepted : parse file source = .ok program) :
    ∃ text report report' after after', format file source = .ok text ∧
      session.run outlet signal file source = (.ok report, after) ∧
      other.run outlet signal file' text = (.ok report', after') ∧
      report.written = report'.written ∧ report.steps = report'.steps ∧
      report.deepest = report'.deepest ∧
      (∀ completion, report.outcome = .ok completion ↔ report'.outcome = .ok completion) ∧
      (∀ halt, report.outcome = .error halt → ∃ halt', report'.outcome = .error halt' ∧
        halt'.diagnostic?.map Diagnostic.code = halt.diagnostic?.map Diagnostic.code ∧
        halt'.diagnostic?.map Diagnostic.message = halt.diagnostic?.map Diagnostic.message) ∧
      report.events.map Event.erased = report'.events.map Event.erased ∧
      after.limits = after'.limits ∧ after.environment.erased = after'.environment.erased := by
  obtain ⟨again, accepted', same⟩ := parse_format file' (wellFormed_of_parse accepted)
  have alike := Program.run_alike same.symm environments
    ⟨session.limits, outlet, signal, session.capacity⟩
  have formatted : format file source = .ok program.format := by
    unfold format
    rw [accepted]
    rfl
  refine ⟨program.format, _, _, _, _, formatted, session.run_of_parse outlet signal accepted,
    other.run_of_parse outlet signal accepted', ?_⟩
  rw [← limits, ← capacities]
  refine ⟨alike.written, alike.steps, alike.deepest, fun completion => ?_, ?_, alike.events, rfl,
    alike.environment⟩
  · exact ⟨alike.outcome_ok, alike.symm.outcome_ok⟩
  · exact fun halt ended => alike.outcome_error ended

/-- Two sessions that declared the same function at different places, one with a source text of its
own spacing and one with the canonical form. -/
theorem run_format_call :
    let source := utf8 "NOILIENTUC  f( 2)IM"
    let function (span : Span) : Function :=
      ⟨utf8 "f", [utf8 "a"], some (.mk span [
        .giveBack span (.binary span .add (.reference span (utf8 "a")) (.reference span (utf8 "a")))])⟩
    let session (span : Span) : Session :=
      ⟨Environment.empty.define (function span), ⟨8, 100, 0⟩, 50⟩
    let moved : Span := ⟨utf8 "lib", ⟨7, 1⟩, ⟨7, 20⟩⟩
    (session moved).limits = (session .blank).limits ∧
    (session moved).capacity = (session .blank).capacity ∧
    (session moved).environment.erased = (session .blank).environment.erased ∧
    ∃ program, parse [] source = .ok program ∧
    ∃ text report report' after after', format [] source = .ok text ∧
      (session moved).run .unlimited .live [] source = (.ok report, after) ∧
      (session .blank).run .unlimited .live [] text = (.ok report', after') ∧
      report.written = report'.written ∧
      after.environment.erased = after'.environment.erased := by
  intro source function session moved
  let formula (primary : Formula 0) : Formula comparison :=
    .chain (.chain (.chain primary .done) .done) .done
  let derivation : Statements :=
    .cons (.print (formula (.call (utf8 "f") (.some (.last (formula (.number (utf8 "2")))))))) .nil
  have behind : Spells (utf8 "( 2)IM")
      [.mark .openParen, .number (utf8 "2"), .mark .closeParen, .keyword .terminator] :=
    .mark .openParen (by simp) <| .blank (b := Text.byte ' ') rfl <|
      @Spells.number _ _ (utf8 "2") ⟨by decide +kernel, by decide +kernel⟩ rfl <| .mark .closeParen (by simp) <|
        .keyword .terminator rfl .nil
  have spelled : Spells source derivation.terminals :=
    .keyword .print rfl <| .blank (b := Text.byte ' ') rfl <| .blank (b := Text.byte ' ') rfl <|
      @Spells.name _ _ (utf8 "f") (by decide +kernel) rfl behind
  have valid : derivation.Valid := by
    refine ⟨?_, ⟨trivial, trivial⟩, by decide +kernel⟩
    simp [derivation, formula, Statements.Greedy, Statement.Greedy, Formula.Greedy, Links.Greedy,
      Arguments.Greedy, Values.Greedy, Links.terminals, operators, Operator.sign]
  obtain ⟨program, accepted, _⟩ := parse_of_derivation [] spelled valid
  obtain ⟨text, report, report', after, after', formatted, ran, ran', written, _, _, _, _, _, _,
      environments⟩ :=
    @run_format (session moved) (session .blank) rfl rfl rfl .unlimited .live [] [] _ _ accepted
  exact ⟨rfl, rfl, rfl, program, accepted, text, report, report', after, after', formatted, ran, ran',
    written, environments⟩

end Session

end Parlance
