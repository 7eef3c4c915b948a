import Parlance.Proofs.Erasure
import Parlance.Proofs.Run.Translation

namespace Parlance

/-!
Self-contained programs. A program that never misses a name in an empty
environment finds there all that it reads, so bindings that lie under its own
cannot show. Running it in another environment is running it in the empty one
and laying what it bound over what was there.
-/

namespace Text

theorem before_irrefl (text : Text) : before text text = false := by
  simp [before, compare_self]

theorem before_or_eq_or_before (a b : Text) : before a b = true ∨ a = b ∨ before b a = true := by
  cases compared : compare a b with
  | lt => exact .inl (by simp [before, compared])
  | eq => exact .inr (.inl (eq_of_compare compared))
  | gt =>
      have swapped : compare b a = .lt := by rw [← compare_swap, compared]; rfl
      exact .inr (.inr (by simp [before, swapped]))

end Text

namespace Table

variable {α : Type}

theorem findEntry_of_before {key : Text} {entries : List (Text × α)}
    (smaller : ∀ entry ∈ entries, Text.before key entry.1 = true) : findEntry key entries = none := by
  induction entries with
  | nil => rfl
  | cons first rest inductionHypothesis =>
      have differs : key ≠ first.1 := by
        rintro rfl
        have less := smaller first List.mem_cons_self
        rw [Text.before_irrefl] at less
        contradiction
      rw [findEntry, if_neg differs]
      exact inductionHypothesis fun entry member => smaller entry (List.mem_cons_of_mem _ member)

/-- The smaller of two first keys is found in one of the tables only. -/
theorem findEntry_ne_of_before {first second : Text × α} {rest rest' : List (Text × α)}
    (sorted : (second :: rest').Pairwise fun a b => Text.before a.1 b.1 = true)
    (less : Text.before first.1 second.1 = true) :
    findEntry first.1 (first :: rest) ≠ findEntry first.1 (second :: rest') := by
  have behind := (List.pairwise_cons.mp sorted).1
  have missing : findEntry first.1 (second :: rest') = none := by
    refine findEntry_of_before fun entry member => ?_
    rcases List.mem_cons.mp member with rfl | member
    · exact less
    · exact Text.before_trans less (behind entry member)
  rw [missing, findEntry, if_pos rfl]
  exact Option.some_ne_none _

theorem entries_ext {entries entries' : List (Text × α)}
    (sorted : entries.Pairwise fun a b => Text.before a.1 b.1 = true)
    (sorted' : entries'.Pairwise fun a b => Text.before a.1 b.1 = true)
    (same : ∀ key, findEntry key entries = findEntry key entries') : entries = entries' := by
  induction entries generalizing entries' with
  | nil =>
      cases entries' with
      | nil => rfl
      | cons second rest' => simpa [findEntry] using same second.1
  | cons first rest inductionHypothesis =>
      cases entries' with
      | nil => simpa [findEntry] using same first.1
      | cons second rest' =>
          have sameKey : first.1 = second.1 := by
            rcases Text.before_or_eq_or_before first.1 second.1 with less | equal | greater
            · exact absurd (same first.1) (findEntry_ne_of_before sorted' less)
            · exact equal
            · exact absurd (same second.1).symm (findEntry_ne_of_before sorted greater)
          have sameValue : first.2 = second.2 := by
            simpa [findEntry, sameKey] using same first.1
          obtain ⟨smallest, sortedRest⟩ := List.pairwise_cons.mp sorted
          obtain ⟨smallest', sortedRest'⟩ := List.pairwise_cons.mp sorted'
          have sameRest : rest = rest' := by
            refine inductionHypothesis sortedRest sortedRest' fun key => ?_
            by_cases front : key = first.1
            · rw [front, findEntry_of_before smallest, sameKey, findEntry_of_before smallest']
            · have front' : key ≠ second.1 := sameKey ▸ front
              simpa [findEntry, front, front'] using same key
          rw [sameRest, Prod.ext sameKey sameValue]

theorem ext_get? {first second : Table α} (same : ∀ key, first.get? key = second.get? key) :
    first = second :=
  ext_entries (entries_ext first.sorted second.sorted same)

def overlayEntries (base : Table α) (entries : List (Text × α)) : Table α :=
  entries.foldr (fun entry table => table.insert entry.1 entry.2) base

/-- The entries of `top`, and those of `base` under other keys. -/
def overlay (base top : Table α) : Table α :=
  base.overlayEntries top.entries

theorem get?_overlayEntries (base : Table α) (entries : List (Text × α)) (key : Text) :
    (base.overlayEntries entries).get? key = (findEntry key entries).or (base.get? key) := by
  induction entries with
  | nil => rfl
  | cons first rest inductionHypothesis =>
      change ((base.overlayEntries rest).insert first.1 first.2).get? key = _
      rw [get?_insert, inductionHypothesis, findEntry]
      split <;> rfl

theorem get?_overlay (base top : Table α) (key : Text) :
    (base.overlay top).get? key = (top.get? key).or (base.get? key) :=
  base.get?_overlayEntries top.entries key

theorem overlay_insert (base top : Table α) (key : Text) (value : α) :
    base.overlay (top.insert key value) = (base.overlay top).insert key value := by
  refine ext_get? fun other => ?_
  rw [get?_overlay, get?_insert, get?_insert, get?_overlay]
  split <;> rfl

end Table

namespace Environment

def overlay (base top : Environment) : Environment :=
  ⟨base.bindings.overlay top.bindings, base.functions.overlay top.functions⟩

theorem get?_overlay (base top : Environment) (name : Text) :
    (base.overlay top).get? name = (top.get? name).or (base.get? name) :=
  Table.get?_overlay base.bindings top.bindings name

theorem function?_overlay (base top : Environment) (name : Text) :
    (base.overlay top).function? name = (top.function? name).or (base.function? name) :=
  Table.get?_overlay base.functions top.functions name

theorem overlay_set (base top : Environment) (name : Text) (value : Value) :
    base.overlay (top.set name value) = (base.overlay top).set name value := by
  simp only [overlay, set, Table.overlay_insert]

theorem overlay_define (base top : Environment) (function : Function) :
    base.overlay (top.define function) = (base.overlay top).define function := by
  simp only [overlay, define, Table.overlay_insert]

end Environment

/-- Stopped because a name was missing. -/
def Halt.Missing (halt : Halt) : Prop :=
  ∃ reason, halt = .fault reason ∧
    (reason.code = .undefinedVariable ∨ reason.code = .undefinedFunction)

open Evaluation

/-- Every machine with bindings laid under its own. -/
def Evaluation.Translation.overlaying (limits : Limits) (base : Environment) :
    Translation limits limits Halt.Missing :=
  { toAlteration := .ofEnvironment limits base.overlay base.overlay_set
      (fun found => by rw [Environment.get?_overlay, found]; rfl)
      (fun _ _ => .inl ⟨_, rfl, .inl rfl⟩)
    define := base.overlay_define
    declared := fun found => (Environment.function?_overlay ..).trans (by rw [found]; rfl)
    undeclared := fun _ _ => .inl ⟨_, rfl, .inr rfl⟩ }

namespace Program

/-- A program that in an empty environment comes to its end or to a fault that is not about a
missing name does the same in every environment, and leaves what it bound and declared over what
was there. -/
theorem run_overlay (program : Program) (setup : Setup)
    (selfContained : ∀ reason, (program.run .empty setup).outcome = .error (.fault reason) →
      reason.code ≠ .undefinedVariable ∧ reason.code ≠ .undefinedFunction)
    (environment : Environment) :
    let fresh := program.run .empty setup
    let report := program.run environment setup
    report.outcome = fresh.outcome ∧ report.steps = fresh.steps ∧
      report.deepest = fresh.deepest ∧ report.written = fresh.written ∧
      report.events = fresh.events ∧
      (∀ name, report.environment.get? name =
        (fresh.environment.get? name).or (environment.get? name)) ∧
      ∀ name, report.environment.function? name =
        (fresh.environment.function? name).or (environment.function? name) := by
  intro fresh report
  let overlaying := Translation.overlaying setup.limits environment
  have sameFresh : fresh = .of program.span (program.result setup.limits
      (setup.limits.nesting setup.capacity) (program.start .empty setup)) :=
    program.run_eq .empty setup
  -- With nothing laid over them, the bindings underneath are the whole environment.
  have sameReport : report = .of program.span (program.result setup.limits
      (setup.limits.nesting setup.capacity) (overlaying.machine (program.start .empty setup))) :=
    program.run_eq environment setup
  have seen := overlaying.result_same program (setup.limits.nesting setup.capacity)
    (program.start .empty setup)
  change ∀ reason, fresh.outcome = .error (.fault reason) → _ at selfContained
  rw [sameFresh] at selfContained
  rw [sameFresh, sameReport]
  generalize program.result _ _ (program.start .empty setup) = result at seen selfContained ⊢
  generalize program.result _ _ (overlaying.machine _) = result' at seen ⊢
  cases seen with
  | ok completion after =>
      exact ⟨rfl, rfl, rfl, rfl, rfl, environment.get?_overlay after.environment,
        environment.function?_overlay after.environment⟩
  | error halt after =>
      exact ⟨rfl, rfl, rfl, rfl, rfl, environment.get?_overlay after.environment,
        environment.function?_overlay after.environment⟩
  | exempt isMissing after =>
      obtain ⟨reason, rfl, missing⟩ := isMissing
      obtain ⟨noVariable, noFunction⟩ := selfContained reason rfl
      exact (missing.elim noVariable noFunction).elim

/-- A program that declares its function anew and assigns one variable inside a call and another
one outside. The session had the function with other parameters, and both variables. -/
theorem run_overlay_redeclared :
    let node : Text → Node := .reference .blank
    let program : Program := ⟨.blank, some (.mk .blank [
      .declaration .blank (utf8 "f") [utf8 "a"] (some (.mk .blank [
        .binary .blank .assign (node (utf8 "x")) (node (utf8 "a")),
        .unary .blank .print (node (utf8 "x"))])),
      .call .blank (utf8 "f") [.number .blank 1],
      .binary .blank .assign (node (utf8 "y")) (.number .blank 2)])⟩
    let environment := ((Environment.empty.set (utf8 "x") (.int 7)).set (utf8 "y") (.int 8)).define
      ⟨utf8 "f", [], none⟩
    let setup := Setup.standard .none
    let fresh := program.run .empty setup
    let report := program.run environment setup
    (∀ reason, fresh.outcome = .error (.fault reason) →
      reason.code ≠ .undefinedVariable ∧ reason.code ≠ .undefinedFunction) ∧
    report.outcome = fresh.outcome ∧ report.written = fresh.written ∧
    report.written = [utf8 "1\n"] ∧
    report.environment.get? (utf8 "x") = some (.int 7) ∧
    report.environment.get? (utf8 "y") = some (.int 2) := by
  intro node program environment setup fresh report
  have succeeded : fresh.outcome.isOk = true := by decide +kernel
  have selfContained : ∀ reason, fresh.outcome = .error (.fault reason) →
      reason.code ≠ .undefinedVariable ∧ reason.code ≠ .undefinedFunction := by
    intro reason failed
    rw [failed] at succeeded
    cases succeeded
  obtain ⟨outcome, _, _, written, _, bindings, _⟩ :=
    run_overlay program setup selfContained environment
  refine ⟨selfContained, outcome, written, ?_, ?_, ?_⟩
  · rw [show report.written = fresh.written from written]
    decide +kernel
  · rw [show report.environment.get? _ = _ from bindings _]
    decide +kernel
  · rw [show report.environment.get? _ = _ from bindings _]
    decide +kernel

end Program

end Parlance
