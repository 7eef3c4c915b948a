import Parlance.Proofs.Grammar.Completeness

namespace Parlance.Derivation

open Grammar (formulaStarts statementWords)

/-!
Derivations are unique. Two greedy derivations that yield the same front of a
list of terminals are the same tree: every rule starts with a terminal of its
own, except that a name may start a reference or a call, and a formula may
start an assignment; there the next terminal decides.
-/

theorem Formula.head {level : Nat} (tree : Formula level) :
    ∃ first others, tree.terminals = first :: others ∧ first.kind ∈ formulaStarts := by
  match level, tree with
  | _, .number digits => exact ⟨.number digits, [], rfl, by simp [Terminal.kind, formulaStarts]⟩
  | _, .string raw => exact ⟨.string raw, [], rfl, by simp [Terminal.kind, formulaStarts]⟩
  | _, .reference name => exact ⟨.name name, [], rfl, by simp [Terminal.kind, formulaStarts]⟩
  | _, .call name _ => exact ⟨.name name, _, rfl, by simp [Terminal.kind, formulaStarts]⟩
  | _, .group _ => exact ⟨.mark .openParen, _, rfl, by simp [Terminal.kind, formulaStarts]⟩
  | _, .chain first links =>
      obtain ⟨terminal, others, whole, starts⟩ := Formula.head first
      exact ⟨terminal, others ++ links.terminals, by rw [Formula.terminals, whole]; rfl, starts⟩

theorem Values.head (values : Values) :
    ∃ first others, values.terminals = first :: others ∧ first.kind ∈ formulaStarts := by
  cases values with
  | last value =>
      obtain ⟨terminal, others, whole, starts⟩ := value.head
      exact ⟨terminal, _, by rw [Values.terminals, whole]; rfl, starts⟩
  | more value values =>
      obtain ⟨terminal, others, whole, starts⟩ := value.head
      exact ⟨terminal, _, by rw [Values.terminals, whole]; rfl, starts⟩

mutual

theorem Formula.unique {level : Nat} (first second : Formula level) {rest other : List Terminal}
    (same : first.terminals ++ rest = second.terminals ++ other)
    (greedy : first.Greedy (rest.headD .endOfFile))
    (greedy' : second.Greedy (other.headD .endOfFile)) : first = second ∧ rest = other := by
  cases first with
  | number digits =>
      cases second with
      | number digits' =>
          simp only [Formula.terminals, List.cons_append, List.nil_append, List.cons.injEq,
            Terminal.number.injEq] at same
          obtain ⟨rfl, behind⟩ := same
          exact ⟨rfl, behind⟩
      | _ => simp [Formula.terminals] at same
  | string raw =>
      cases second with
      | string raw' =>
          simp only [Formula.terminals, List.cons_append, List.nil_append, List.cons.injEq,
            Terminal.string.injEq] at same
          obtain ⟨rfl, behind⟩ := same
          exact ⟨rfl, behind⟩
      | _ => simp [Formula.terminals] at same
  | reference name =>
      cases second with
      | reference name' =>
          simp only [Formula.terminals, List.cons_append, List.nil_append, List.cons.injEq,
            Terminal.name.injEq] at same
          obtain ⟨rfl, behind⟩ := same
          exact ⟨rfl, behind⟩
      | call name' arguments =>
          simp only [Formula.terminals, List.cons_append, List.nil_append, List.cons.injEq] at same
          simp [Formula.Greedy, same.2] at greedy
      | _ => simp [Formula.terminals] at same
  | call name arguments =>
      cases second with
      | call name' arguments' =>
          simp only [Formula.terminals, List.cons_append, List.cons.injEq, Terminal.name.injEq,
            true_and] at same
          obtain ⟨rfl, behind⟩ := same
          obtain ⟨rfl, last⟩ := Arguments.unique arguments arguments' behind greedy greedy'
          exact ⟨rfl, last⟩
      | reference name' =>
          simp only [Formula.terminals, List.cons_append, List.nil_append, List.cons.injEq] at same
          simp [Formula.Greedy, ← same.2] at greedy'
      | _ => simp [Formula.terminals] at same
  | group inner =>
      cases second with
      | group inner' =>
          simp only [Formula.terminals, List.cons_append, List.append_assoc, List.cons.injEq,
            true_and] at same
          obtain ⟨rfl, behind⟩ := Formula.unique inner inner' same greedy greedy'
          exact ⟨rfl, List.tail_eq_of_cons_eq behind⟩
      | _ => simp [Formula.terminals] at same
  | chain operand links =>
      cases second with
      | chain operand' links' =>
          simp only [Formula.terminals, List.append_assoc] at same
          obtain ⟨rfl, behind⟩ := Formula.unique operand operand' same
            (headD_append _ _ _ ▸ greedy.1) (headD_append _ _ _ ▸ greedy'.1)
          obtain ⟨rfl, last⟩ := Links.unique links links' behind greedy.2 greedy'.2
          exact ⟨rfl, last⟩
termination_by structural first

theorem Links.unique {level : Nat} (first second : Links level) {rest other : List Terminal}
    (same : first.terminals ++ rest = second.terminals ++ other)
    (greedy : first.Greedy (rest.headD .endOfFile))
    (greedy' : second.Greedy (other.headD .endOfFile)) : first = second ∧ rest = other := by
  match level, first, second with
  | _, .done, .done => exact ⟨rfl, same⟩
  | _, .done, .link operator binds right links =>
      rw [Links.terminals, Links.terminals, List.nil_append] at same
      rw [same] at greedy
      exact absurd rfl (greedy operator binds)
  | _, .link operator binds right links, .done =>
      rw [Links.terminals, Links.terminals, List.nil_append] at same
      rw [← same] at greedy'
      exact absurd rfl (greedy' operator binds)
  | _, .link operator binds right links, .link operator' binds' right' links' =>
      simp only [Links.terminals, List.cons_append, List.append_assoc, List.cons.injEq] at same
      have sameOperator : operator' = operator :=
        sign_injective (mem_binaryOperators binds') (mem_binaryOperators binds) same.1.symm
      obtain ⟨sameRight, behind⟩ := Formula.unique right right' same.2
        (headD_append _ _ _ ▸ greedy.1) (headD_append _ _ _ ▸ greedy'.1)
      obtain ⟨sameLinks, last⟩ := Links.unique links links' behind greedy.2 greedy'.2
      subst sameOperator sameRight sameLinks
      exact ⟨rfl, last⟩
termination_by structural first

theorem Arguments.unique (first second : Arguments) {rest other : List Terminal}
    (same : first.terminals ++ rest = second.terminals ++ other)
    (greedy : first.Greedy) (greedy' : second.Greedy) : first = second ∧ rest = other := by
  cases first with
  | none =>
      cases second with
      | none => exact ⟨rfl, List.append_cancel_left same⟩
      | some values =>
          obtain ⟨terminal, others, whole, starts⟩ := values.head
          rw [Arguments.terminals, Arguments.terminals, whole] at same
          cases same
          simp [Terminal.kind, formulaStarts] at starts
  | some values =>
      cases second with
      | none =>
          obtain ⟨terminal, others, whole, starts⟩ := values.head
          rw [Arguments.terminals, Arguments.terminals, whole] at same
          cases same
          simp [Terminal.kind, formulaStarts] at starts
      | some values' =>
          obtain ⟨rfl, behind⟩ := Values.unique values values' same greedy greedy'
          exact ⟨rfl, behind⟩
termination_by structural first

theorem Values.unique (first second : Values) {rest other : List Terminal}
    (same : first.terminals ++ rest = second.terminals ++ other)
    (greedy : first.Greedy) (greedy' : second.Greedy) : first = second ∧ rest = other := by
  cases first with
  | last value =>
      cases second with
      | last value' =>
          simp only [Values.terminals, List.append_assoc] at same
          obtain ⟨rfl, behind⟩ := Formula.unique value value' same greedy greedy'
          exact ⟨rfl, List.tail_eq_of_cons_eq behind⟩
      | more value' values' =>
          simp only [Values.terminals, List.append_assoc] at same
          have behind := (Formula.unique value value' same greedy greedy'.1).2
          simp at behind
  | more value values =>
      cases second with
      | last value' =>
          simp only [Values.terminals, List.append_assoc] at same
          have behind := (Formula.unique value value' same greedy.1 greedy').2
          simp at behind
      | more value' values' =>
          simp only [Values.terminals, List.append_assoc] at same
          obtain ⟨rfl, behind⟩ := Formula.unique value value' same greedy.1 greedy'.1
          simp only [List.cons_append, List.cons.injEq, true_and] at behind
          obtain ⟨rfl, last⟩ := Values.unique values values' behind greedy.2 greedy'.2
          exact ⟨rfl, last⟩
termination_by structural first

end

theorem separated_unique {names names' : List Text} {rest other : List Terminal}
    (same : separated names ++ .mark .closeParen :: rest =
      separated names' ++ .mark .closeParen :: other) : names = names' ∧ rest = other := by
  induction names generalizing names' with
  | nil =>
      cases names' with
      | nil => exact ⟨rfl, List.tail_eq_of_cons_eq same⟩
      | cons name names => cases names <;> simp [separated] at same
  | cons name names inductionHypothesis =>
      cases names' with
      | nil => cases names <;> simp [separated] at same
      | cons name' names' =>
          cases names with
          | nil =>
              cases names' with
              | nil =>
                  simp only [separated, List.cons_append, List.nil_append, List.cons.injEq,
                    Terminal.name.injEq, true_and] at same
                  exact ⟨by rw [same.1], same.2⟩
              | cons following names' => simp [separated] at same
          | cons following names =>
              cases names' with
              | nil => simp [separated] at same
              | cons following' names' =>
                  simp only [separated, List.cons_append, List.cons.injEq, Terminal.name.injEq,
                    true_and] at same
                  obtain ⟨sameNames, behind⟩ := inductionHypothesis same.2
                  exact ⟨by rw [same.1, sameNames], behind⟩

theorem terminator_unique {taken taken' : Bool} {rest other : List Terminal}
    (same : terminator taken ++ rest = terminator taken' ++ other)
    (left : taken = false → rest.headD .endOfFile ≠ .keyword .terminator)
    (left' : taken' = false → other.headD .endOfFile ≠ .keyword .terminator) :
    taken = taken' ∧ rest = other := by
  cases taken with
  | true =>
      cases taken' with
      | true => exact ⟨rfl, List.tail_eq_of_cons_eq same⟩
      | false =>
          rw [terminator, terminator, List.nil_append] at same
          exact absurd (by rw [← same]; rfl) (left' rfl)
  | false =>
      cases taken' with
      | true =>
          rw [terminator, terminator, List.nil_append] at same
          exact absurd (by rw [same]; rfl) (left rfl)
      | false => exact ⟨rfl, same⟩

/-- The word that opens a statement, if it is not a formula or an assignment. -/
def Statement.word? : Statement → Option Keyword
  | .declaration .. => some .function
  | .giveBack .. => some .giveBack
  | .conditional .. => some .ifWord
  | .print _ => some .print
  | .formula _ | .assignment .. => none

/-- A statement starts with its word, or else with a formula. -/
theorem Statement.head (tree : Statement) : ∃ first others, tree.terminals = first :: others ∧
    match tree.word? with
    | some word => first = .keyword word ∧ first.kind ∈ statementWords
    | none => first.kind ∈ formulaStarts := by
  cases tree with
  | declaration name parameters body terminated =>
      exact ⟨_, _, rfl, rfl, by simp [Terminal.kind, statementWords]⟩
  | giveBack value terminated => exact ⟨_, _, rfl, rfl, by simp [Terminal.kind, statementWords]⟩
  | conditional conditional terminated =>
      cases conditional
      exact ⟨_, _, rfl, rfl, by simp [Terminal.kind, statementWords]⟩
  | print operand => exact ⟨_, _, rfl, rfl, by simp [Terminal.kind, statementWords]⟩
  | formula value =>
      obtain ⟨terminal, others, whole, starts⟩ := value.head
      exact ⟨terminal, _, by rw [Statement.terminals, whole]; rfl, starts⟩
  | assignment target value =>
      obtain ⟨terminal, others, whole, starts⟩ := target.head
      exact ⟨terminal, _, by rw [Statement.terminals, whole]; rfl, starts⟩

theorem Statement.starts (tree : Statement) : ∃ first others, tree.terminals = first :: others ∧
    first.kind ∈ statementWords ++ formulaStarts := by
  obtain ⟨terminal, others, whole, starts⟩ := tree.head
  refine ⟨terminal, others, whole, ?_⟩
  cases word : tree.word? with
  | none =>
      simp only [word] at starts
      exact List.mem_append_right _ starts
  | some keyword =>
      simp only [word] at starts
      exact List.mem_append_left _ starts.2

theorem word?_unique (first second : Statement) {rest other : List Terminal}
    (same : first.terminals ++ rest = second.terminals ++ other) : first.word? = second.word? := by
  obtain ⟨terminal, others, whole, starts⟩ := first.head
  obtain ⟨terminal', others', whole', starts'⟩ := second.head
  rw [whole, whole'] at same
  have sameHead : terminal = terminal' := List.head_eq_of_cons_eq same
  subst sameHead
  cases word : first.word? with
  | none =>
      cases word' : second.word? with
      | none => rfl
      | some keyword' =>
          simp only [word, word'] at starts starts'
          simp [starts'.1, Terminal.kind, formulaStarts] at starts
  | some keyword =>
      cases word' : second.word? with
      | none =>
          simp only [word, word'] at starts starts'
          simp [starts.1, Terminal.kind, formulaStarts] at starts'
      | some keyword' =>
          simp only [word, word'] at starts starts'
          rw [starts'.1] at starts
          rw [Terminal.keyword.inj starts.1]

/-- What may stand behind the last statement of a list. -/
def Closes (rest : List Terminal) : Prop :=
  (rest.headD .endOfFile).kind ∉ statementWords ++ formulaStarts

theorem closes_closeBlock (rest : List Terminal) : Closes (.keyword .closeBlock :: rest) := by
  simp [Closes, Terminal.kind, statementWords, formulaStarts]

theorem Statement.not_closes (tree : Statement) (rest : List Terminal) :
    ¬ Closes (tree.terminals ++ rest) := by
  obtain ⟨terminal, others, whole, starts⟩ := tree.starts
  rw [whole]
  exact fun closes => closes starts

mutual

theorem Statement.unique (first second : Statement) {rest other : List Terminal}
    (same : first.terminals ++ rest = second.terminals ++ other)
    (greedy : first.Greedy (rest.headD .endOfFile))
    (greedy' : second.Greedy (other.headD .endOfFile)) : first = second ∧ rest = other := by
  have sameWord := word?_unique first second same
  cases first with
  | declaration name parameters body terminated =>
      cases second with
      | declaration name' parameters' body' terminated' =>
          simp only [Statement.terminals, enclosed, List.cons_append, List.append_assoc,
            List.cons.injEq, Terminal.name.injEq, true_and] at same
          obtain ⟨rfl, inside⟩ := same
          obtain ⟨rfl, behind⟩ := separated_unique inside
          simp only [List.cons.injEq, true_and] at behind
          obtain ⟨rfl, ending⟩ := Statements.unique body body' behind
            (closes_closeBlock _) (closes_closeBlock _) greedy.1 greedy'.1
          obtain ⟨rfl, last⟩ := terminator_unique (List.tail_eq_of_cons_eq ending) greedy.2 greedy'.2
          exact ⟨rfl, last⟩
      | _ => simp [Statement.word?] at sameWord
  | giveBack value terminated =>
      cases second with
      | giveBack value' terminated' =>
          simp only [Statement.terminals, List.cons_append, List.append_assoc, List.cons.injEq,
            true_and] at same
          obtain ⟨rfl, behind⟩ := Formula.unique value value' same
            (headD_append _ _ _ ▸ greedy.1) (headD_append _ _ _ ▸ greedy'.1)
          obtain ⟨rfl, last⟩ := terminator_unique behind greedy.2 greedy'.2
          exact ⟨rfl, last⟩
      | _ => simp [Statement.word?] at sameWord
  | conditional conditional terminated =>
      cases second with
      | conditional conditional' terminated' =>
          simp only [Statement.terminals, List.append_assoc] at same
          obtain ⟨rfl, behind⟩ := Conditional.unique conditional conditional' same
            (headD_append _ _ _ ▸ greedy.1) (headD_append _ _ _ ▸ greedy'.1)
          obtain ⟨rfl, last⟩ := terminator_unique behind greedy.2 greedy'.2
          exact ⟨rfl, last⟩
      | _ => simp [Statement.word?] at sameWord
  | print operand =>
      cases second with
      | print operand' =>
          simp only [Statement.terminals, List.cons_append, List.append_assoc, List.cons.injEq,
            true_and] at same
          obtain ⟨rfl, behind⟩ := Formula.unique operand operand' same greedy greedy'
          exact ⟨rfl, List.tail_eq_of_cons_eq behind⟩
      | _ => simp [Statement.word?] at sameWord
  | formula value =>
      cases second with
      | formula value' =>
          simp only [Statement.terminals, List.append_assoc] at same
          obtain ⟨rfl, behind⟩ := Formula.unique value value' same greedy greedy'
          exact ⟨rfl, List.tail_eq_of_cons_eq behind⟩
      | assignment target' value' =>
          simp only [Statement.terminals, List.append_assoc] at same
          have behind := (Formula.unique value target' same greedy greedy'.1).2
          simp at behind
      | _ => simp [Statement.word?] at sameWord
  | assignment target value =>
      cases second with
      | formula value' =>
          simp only [Statement.terminals, List.append_assoc] at same
          have behind := (Formula.unique target value' same greedy.1 greedy').2
          simp at behind
      | assignment target' value' =>
          simp only [Statement.terminals, List.append_assoc] at same
          obtain ⟨rfl, behind⟩ := Formula.unique target target' same greedy.1 greedy'.1
          simp only [List.cons_append, List.append_assoc, List.cons.injEq, true_and] at behind
          obtain ⟨rfl, ending⟩ := Formula.unique value value' behind greedy.2 greedy'.2
          exact ⟨rfl, List.tail_eq_of_cons_eq ending⟩
      | _ => simp [Statement.word?] at sameWord
termination_by structural first

theorem Conditional.unique (first second : Conditional) {rest other : List Terminal}
    (same : first.terminals ++ rest = second.terminals ++ other)
    (greedy : first.Greedy (rest.headD .endOfFile))
    (greedy' : second.Greedy (other.headD .endOfFile)) : first = second ∧ rest = other := by
  cases first with
  | mk condition body alternative =>
      cases second with
      | mk condition' body' alternative' =>
          simp only [Conditional.terminals, enclosed, List.cons_append, List.append_assoc,
            List.cons.injEq, true_and] at same
          obtain ⟨rfl, inside⟩ := Formula.unique condition condition' same greedy.1 greedy'.1
          obtain ⟨rfl, ending⟩ := Statements.unique body body' (List.tail_eq_of_cons_eq inside)
            (closes_closeBlock _) (closes_closeBlock _) greedy.2.1 greedy'.2.1
          obtain ⟨rfl, last⟩ := Alternative.unique alternative alternative'
            (List.tail_eq_of_cons_eq ending) greedy.2.2 greedy'.2.2
          exact ⟨rfl, last⟩
termination_by structural first

theorem Alternative.unique (first second : Alternative) {rest other : List Terminal}
    (same : first.terminals ++ rest = second.terminals ++ other)
    (greedy : first.Greedy (rest.headD .endOfFile))
    (greedy' : second.Greedy (other.headD .endOfFile)) : first = second ∧ rest = other := by
  cases first with
  | none =>
      cases second with
      | none => exact ⟨rfl, same⟩
      | _ =>
          rw [Alternative.terminals, Alternative.terminals, List.nil_append] at same
          exact absurd (by rw [same]; rfl) greedy
  | conditional conditional =>
      cases second with
      | none =>
          rw [Alternative.terminals, Alternative.terminals, List.nil_append] at same
          exact absurd (by rw [← same]; rfl) greedy'
      | conditional conditional' =>
          obtain ⟨rfl, last⟩ := Conditional.unique conditional conditional'
            (List.tail_eq_of_cons_eq same) greedy greedy'
          exact ⟨rfl, last⟩
      | body body' =>
          cases conditional
          simp [Alternative.terminals, Conditional.terminals, enclosed] at same
  | body body =>
      cases second with
      | none =>
          rw [Alternative.terminals, Alternative.terminals, List.nil_append] at same
          exact absurd (by rw [← same]; rfl) greedy'
      | conditional conditional' =>
          cases conditional'
          simp [Alternative.terminals, Conditional.terminals, enclosed] at same
      | body body' =>
          simp only [Alternative.terminals, enclosed, List.cons_append, List.append_assoc,
            List.cons.injEq, true_and] at same
          obtain ⟨rfl, ending⟩ := Statements.unique body body' same
            (closes_closeBlock _) (closes_closeBlock _) greedy greedy'
          exact ⟨rfl, List.tail_eq_of_cons_eq ending⟩
termination_by structural first

theorem Statements.unique (first second : Statements) {rest other : List Terminal}
    (same : first.terminals ++ rest = second.terminals ++ other)
    (closes : Closes rest) (closes' : Closes other)
    (greedy : first.Greedy (rest.headD .endOfFile))
    (greedy' : second.Greedy (other.headD .endOfFile)) : first = second ∧ rest = other := by
  cases first with
  | nil =>
      cases second with
      | nil => exact ⟨rfl, same⟩
      | cons statement statements =>
          rw [Statements.terminals, Statements.terminals, List.nil_append, List.append_assoc] at same
          exact absurd (same ▸ closes) (statement.not_closes _)
  | cons statement statements =>
      cases second with
      | nil =>
          rw [Statements.terminals, Statements.terminals, List.nil_append, List.append_assoc] at same
          exact absurd (same ▸ closes') (statement.not_closes _)
      | cons statement' statements' =>
          simp only [Statements.terminals, List.append_assoc] at same
          obtain ⟨rfl, behind⟩ := Statement.unique statement statement' same
            (headD_append _ _ _ ▸ greedy.1) (headD_append _ _ _ ▸ greedy'.1)
          obtain ⟨rfl, last⟩ := Statements.unique statements statements' behind closes closes'
            greedy.2 greedy'.2
          exact ⟨rfl, last⟩
termination_by structural first

end

end Parlance.Derivation
