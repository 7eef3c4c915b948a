import Parlance.Proofs.Run.Machine
import Parlance.Proofs.Scanning.Numeral

namespace Parlance

/-!
Arithmetic is exact up to whole turns of the word. Operators work on words of 64
bits, but sums, differences and products may be reduced at any time, so only the
value of the whole tree matters. A quotient is taken of operands that have been
reduced, and it is missing if the divisor is zero.
-/

namespace Word

/-- The signed word that a whole number comes to. -/
def wrapped (value : Int) : Int :=
  value.bmod count

theorem wrapped_toInt (word : Int64) : wrapped word.toInt = word.toInt :=
  word.toInt_bmod

theorem wrapped_of_isSigned {value : Int} (fits : isSigned value = true) :
    wrapped value = value := by
  obtain ⟨lower, upper⟩ := Text.isSigned_iff.mp fits
  refine Int.bmod_eq_of_le ?_ ?_ <;> simp only [count] <;> omega

theorem isSigned_toInt (word : Int64) : isSigned word.toInt = true :=
  Text.isSigned_iff.mpr ⟨word.le_toInt, word.toInt_lt⟩

/-- Of all quotients of words only one is no word itself. -/
theorem isSigned_tdiv {a b : Int} (isWord : isSigned a = true)
    (inside : ¬ (a = -bound ∧ b = -1)) : isSigned (a.tdiv b) = true := by
  rw [Text.isSigned_iff] at isWord ⊢
  have smaller := Int.natAbs_tdiv_le_natAbs a b
  by_cases negated : b = -1
  · have above : a ≠ -9223372036854775808 := fun least => inside ⟨least, negated⟩
    rw [negated, Int.tdiv_neg, Int.tdiv_one]
    omega
  · by_cases negative : b < 0
    · have halved : (a.tdiv b).natAbs ≤ a.natAbs / 2 := by
        rw [Int.natAbs_tdiv]
        exact Nat.div_le_div_left (by omega) (by decide)
      omega
    · -- With a positive divisor the quotient has the sign of the dividend.
      rcases Int.le_total 0 a with positive | positive
      · have sign := Int.tdiv_nonneg positive (show 0 ≤ b by omega)
        omega
      · have opposite : a.tdiv b = -(-a).tdiv b := by rw [Int.neg_tdiv, Int.neg_neg]
        have sign := Int.tdiv_nonneg (show 0 ≤ -a by omega) (show 0 ≤ b by omega)
        omega

theorem wrapped_tdiv {a : Int} (isWord : isSigned a = true) (b : Int) :
    wrapped (a.tdiv b) = if a = -bound ∧ b = -1 then -bound else a.tdiv b := by
  split
  · next outside =>
      rw [outside.1, outside.2]
      decide
  · next inside => exact wrapped_of_isSigned (isSigned_tdiv isWord inside)

end Word

namespace Operator

def arithmetic : List Operator :=
  [add, subtract, multiply, divide]

/-- What an arithmetic operator makes of whole numbers of any size. Quotients are
truncated toward zero. -/
def exact : Operator → Int → Int → Int
  | add, a, b => a + b
  | subtract, a, b => a - b
  | multiply, a, b => a * b
  | divide, a, b => a.tdiv b
  | _, _, _ => 0

/-- The result on words is the exact one, reduced. Only a division can fail. -/
theorem apply_words {operator : Operator} (isArithmetic : operator ∈ arithmetic) {a b : Int64}
    (divides : operator = divide → b ≠ 0) :
    ∃ word : Int64, operator.apply (.int a) (.int b) = .ok (.int word) ∧
      word.toInt = Word.wrapped (operator.exact a.toInt b.toInt) := by
  simp only [arithmetic, List.mem_cons, List.not_mem_nil, or_false] at isArithmetic
  rcases isArithmetic with rfl | rfl | rfl | rfl
  · exact ⟨a + b, rfl, Int64.toInt_add a b⟩
  · exact ⟨a - b, rfl, Int64.toInt_sub a b⟩
  · exact ⟨a * b, rfl, Int64.toInt_mul a b⟩
  · exact ⟨a / b, if_neg (divides rfl), Int64.toInt_div a b⟩

/-- Operands of anything but a division may be reduced beforehand. -/
theorem wrapped_exact {operator : Operator} (isArithmetic : operator ∈ arithmetic)
    (undivided : operator ≠ divide) (a b : Int) :
    Word.wrapped (operator.exact (Word.wrapped a) (Word.wrapped b)) =
      Word.wrapped (operator.exact a b) := by
  simp only [arithmetic, List.mem_cons, List.not_mem_nil, or_false] at isArithmetic
  rcases isArithmetic with rfl | rfl | rfl | rfl
  · exact Int.bmod_add_bmod.trans Int.add_bmod_bmod
  · exact Int.bmod_sub_bmod.trans Int.sub_bmod_bmod
  · exact Int.bmod_mul_bmod.trans Int.mul_bmod_bmod
  · contradiction

end Operator

/-- A division in a tree. -/
structure Division where
  span : Span
  dividend : Node
  divisor : Node

def Division.node (division : Division) : Node :=
  .binary division.span .divide division.dividend division.divisor

namespace Node

/-- Trees of number literals, variables that hold integers, and arithmetic
operators. -/
inductive IsArithmetic (environment : Environment) : Node → Prop
  | number {span : Span} {value : Int64} : IsArithmetic environment (.number span value)
  | reference {span : Span} {name : Text} {value : Int64}
      (bound : environment.get? name = some (.int value)) :
      IsArithmetic environment (.reference span name)
  | binary {span : Span} {operator : Operator} {left right : Node}
      (isArithmetic : operator ∈ Operator.arithmetic)
      (leftArithmetic : IsArithmetic environment left)
      (rightArithmetic : IsArithmetic environment right) :
      IsArithmetic environment (.binary span operator left right)

/-- The value of an arithmetic tree if the result of every operator is reduced
in the given way. -/
def computed (reduce : Int → Int) (environment : Environment) : Node → Int
  | .number _ value => value.toInt
  | .reference _ name =>
    match environment.get? name with
    | some (.int value) => value.toInt
    | _ => 0
  | .binary _ operator left right =>
    reduce (operator.exact (left.computed reduce environment) (right.computed reduce environment))
  | _ => 0

/-- The divisions of an arithmetic tree, each behind those in its operands. -/
def divisions : Node → List Division
  | .binary span operator left right =>
    left.divisions ++ right.divisions ++
      if operator = .divide then [⟨span, left, right⟩] else []
  | _ => []

variable {environment : Environment} {node : Node}

/-- Without divisions it does not matter whether results are reduced on the way. -/
theorem IsArithmetic.computed_wrapped (isArithmetic : node.IsArithmetic environment)
    (undivided : node.divisions = []) :
    node.computed Word.wrapped environment = Word.wrapped (node.computed id environment) := by
  induction isArithmetic with
  | number => exact (Word.wrapped_toInt _).symm
  | reference bound =>
      simp only [computed, bound]
      exact (Word.wrapped_toInt _).symm
  | binary isArithmetic _ _ leftWrapped rightWrapped =>
      simp only [divisions, List.append_eq_nil_iff, ite_eq_right_iff, List.cons_ne_nil,
        imp_false] at undivided
      obtain ⟨⟨leftUndivided, rightUndivided⟩, noDivision⟩ := undivided
      simp only [computed, leftWrapped leftUndivided, rightWrapped rightUndivided]
      exact Operator.wrapped_exact isArithmetic noDivision _ _

end Node

namespace Evaluation

section Trees

variable (limits : Limits) (enter : Enter) (machine : Machine)

def IsZero (node : Node) : Prop :=
  expression limits enter node machine = .ok (.int 0) machine

/-- How the evaluation of an arithmetic tree ends: with its value if no divisor is
zero, and otherwise at the first division by zero. -/
inductive Computes (divisions : List Division) (value : Int) :
    EStateM.Result Halt Machine Value → Prop
  | ok {word : Int64}
      (nonzero : ∀ division ∈ divisions, ¬ IsZero limits enter machine division.divisor)
      (same : word.toInt = value) : Computes divisions value (.ok (.int word) machine)
  | zero {front back : List Division} {division : Division}
      (whole : divisions = front ++ division :: back)
      (nonzero : ∀ earlier ∈ front, ¬ IsZero limits enter machine earlier.divisor)
      (isZero : IsZero limits enter machine division.divisor) :
      Computes divisions value (.error (.fault ⟨.divisionByZero, some division.span⟩) machine)

variable {limits enter machine} {left right : Node} {operator : Operator} {span : Span}

theorem binary_of_error (computes : operator ≠ .assign) {halt : Halt}
    (failed : expression limits enter left machine = .error halt machine) :
    expression limits enter (.binary span operator left right) machine = .error halt machine := by
  simp only [expression, if_neg computes]
  exact bind_of_error failed

theorem binary_of_ok (computes : operator ≠ .assign) {a : Value}
    (evaluated : expression limits enter left machine = .ok a machine) {halt : Halt}
    (failed : expression limits enter right machine = .error halt machine) :
    expression limits enter (.binary span operator left right) machine = .error halt machine := by
  simp only [expression, if_neg computes]
  rw [bind_of_ok evaluated]
  exact bind_of_error failed

theorem binary_applied (computes : operator ≠ .assign) {a b : Value}
    (evaluated : expression limits enter left machine = .ok a machine)
    (evaluated' : expression limits enter right machine = .ok b machine) :
    expression limits enter (.binary span operator left right) machine =
      match operator.apply a b with
      | .ok value => .ok value machine
      | .error cause => .error (.fault ⟨cause, some span⟩) machine := by
  simp only [expression, if_neg computes]
  rw [bind_of_ok evaluated, bind_of_ok evaluated']
  cases operator.apply a b <;> rfl

theorem ne_assign_of_arithmetic (isArithmetic : operator ∈ Operator.arithmetic) :
    operator ≠ .assign := by
  rintro rfl
  exact absurd isArithmetic (by decide)

/-- The steps of an operator: its operands are computed in order, then it is applied. -/
theorem Computes.binary {leftDivisions rightDivisions : List Division} {leftValue rightValue : Int}
    (isArithmetic : operator ∈ Operator.arithmetic)
    (leftComputes : Computes limits enter machine leftDivisions leftValue
      (expression limits enter left machine))
    (rightComputes : Computes limits enter machine rightDivisions rightValue
      (expression limits enter right machine)) :
    Computes limits enter machine
      (leftDivisions ++ rightDivisions ++ if operator = .divide then [⟨span, left, right⟩] else [])
      (Word.wrapped (operator.exact leftValue rightValue))
      (expression limits enter (.binary span operator left right) machine) := by
  have computes := ne_assign_of_arithmetic isArithmetic
  generalize leftEnded : expression limits enter left machine = leftResult at leftComputes
  cases leftComputes with
  | zero whole nonzero isZero =>
      rw [binary_of_error computes leftEnded, whole]
      exact .zero (by rw [List.append_assoc, List.append_assoc, List.cons_append]) nonzero isZero
  | @ok a leftNonzero leftSame =>
      generalize rightEnded : expression limits enter right machine = rightResult at rightComputes
      cases rightComputes with
      | @zero front back division whole nonzero isZero =>
          rw [binary_of_ok computes leftEnded rightEnded, whole]
          refine .zero (by rw [← List.append_assoc, List.append_assoc, List.cons_append]) ?_ isZero
          exact List.forall_mem_append.mpr ⟨leftNonzero, nonzero⟩
      | @ok b rightNonzero rightSame =>
          rw [binary_applied computes leftEnded rightEnded]
          have nonzero := List.forall_mem_append.mpr ⟨leftNonzero, rightNonzero⟩
          by_cases byZero : operator = .divide ∧ b = 0
          · obtain ⟨rfl, rfl⟩ := byZero
            exact .zero rfl nonzero rightEnded
          · have divides : operator = .divide → b ≠ 0 := fun isDivision zero =>
              byZero ⟨isDivision, zero⟩
            obtain ⟨word, applied, same⟩ := Operator.apply_words isArithmetic divides
            rw [applied]
            refine .ok (List.forall_mem_append.mpr ⟨nonzero, fun division member isZero => ?_⟩) ?_
            · split at member
              · next isDivision =>
                  cases List.mem_singleton.mp member
                  have same := EStateM.Result.ok.inj (rightEnded.symm.trans isZero)
                  exact divides isDivision (Value.int.inj same.1)
              · contradiction
            · rw [same, leftSame, rightSame]

variable (limits enter) in
theorem computes_expression {node : Node} (isArithmetic : node.IsArithmetic machine.environment) :
    Computes limits enter machine node.divisions (node.computed Word.wrapped machine.environment)
      (expression limits enter node machine) := by
  induction isArithmetic with
  | number => exact .ok (List.forall_mem_nil _) rfl
  | @reference span name value bound =>
      have evaluated : expression limits enter (.reference span name) machine =
          .ok (.int value) machine := Machine.lookup_of_some span bound
      rw [evaluated]
      refine .ok (List.forall_mem_nil _) ?_
      simp only [Node.computed, bound]
  | binary isArithmetic _ _ leftComputes rightComputes =>
      exact .binary isArithmetic leftComputes rightComputes

variable {divisions : List Division} {value : Int} {result : EStateM.Result Halt Machine Value}

theorem Computes.fails_iff (computes : Computes limits enter machine divisions value result) :
    (∃ halt after, result = .error halt after) ↔
      ∃ division ∈ divisions, IsZero limits enter machine division.divisor := by
  cases computes with
  | ok nonzero _ =>
      refine ⟨fun ⟨_, _, failed⟩ => ?_, fun ⟨division, member, isZero⟩ => ?_⟩
      · cases failed
      · exact absurd isZero (nonzero division member)
  | zero whole _ isZero =>
      rw [whole]
      exact ⟨fun _ => ⟨_, List.mem_append_right _ List.mem_cons_self, isZero⟩, fun _ => ⟨_, _, rfl⟩⟩

/-- There is only one first division by zero. -/
theorem Computes.first (computes : Computes limits enter machine divisions value result)
    {front back : List Division} {division : Division}
    (whole : divisions = front ++ division :: back)
    (nonzero : ∀ earlier ∈ front, ¬ IsZero limits enter machine earlier.divisor)
    (isZero : IsZero limits enter machine division.divisor) :
    result = .error (.fault ⟨.divisionByZero, some division.span⟩) machine := by
  classical
  have found {front back : List Division} {division : Division}
      (whole : divisions = front ++ division :: back)
      (nonzero : ∀ earlier ∈ front, ¬ IsZero limits enter machine earlier.divisor)
      (isZero : IsZero limits enter machine division.divisor) :
      divisions.find? (fun division => decide (IsZero limits enter machine division.divisor)) =
        some division :=
    List.find?_eq_some_iff_append.mpr
      ⟨decide_eq_true isZero, front, back, whole, by simpa using nonzero⟩
  cases computes with
  | ok nonzero _ =>
      have member : division ∈ divisions := whole ▸ List.mem_append_right _ List.mem_cons_self
      exact absurd isZero (nonzero division member)
  | zero whole' nonzero' isZero' =>
      have same := (found whole' nonzero' isZero').symm.trans (found whole nonzero isZero)
      rw [Option.some.inj same]

end Trees

variable (limits : Limits) (enter : Enter) {machine : Machine} {node : Node}

/-- Trees of numbers, variables that hold integers, and arithmetic operators, in any machine.
Without divisions the result is the exact value, reduced to a word at the end; so it is the exact
value if that is a word, whatever the results on the way. A division gives the quotient of the
words that its operands come to, truncated toward zero; only the least word divided by minus one is
left as it is. Evaluation fails if and only if some divisor comes to zero, and then at the first
such division, where each division stands behind those in its operands and the left operand before
the right. -/
theorem expression_arithmetic (isArithmetic : node.IsArithmetic machine.environment) :
    (node.divisions = [] → ∃ word : Int64,
      expression limits enter node machine = .ok (.int word) machine ∧
      word.toInt = Int.bmod (node.computed id machine.environment) Word.count ∧
      (Word.isSigned (node.computed id machine.environment) = true →
        word.toInt = node.computed id machine.environment)) ∧
    (∀ division ∈ node.divisions, ∀ a b : Int64,
      expression limits enter division.dividend machine = .ok (.int a) machine →
      expression limits enter division.divisor machine = .ok (.int b) machine → b ≠ 0 →
      ∃ word : Int64, expression limits enter division.node machine = .ok (.int word) machine ∧
        word.toInt = if a.toInt = -Word.bound ∧ b.toInt = -1 then -Word.bound
          else a.toInt.tdiv b.toInt) ∧
    ((∃ halt after, expression limits enter node machine = .error halt after) ↔
      ∃ division ∈ node.divisions, IsZero limits enter machine division.divisor) ∧
    (∀ front division back, node.divisions = front ++ division :: back →
      (∀ earlier ∈ front, ¬ IsZero limits enter machine earlier.divisor) →
      IsZero limits enter machine division.divisor →
      expression limits enter node machine =
        .error (.fault ⟨.divisionByZero, some division.span⟩) machine) ∧
    ∀ value after, expression limits enter node machine = .ok value after →
      after = machine ∧ ∃ word : Int64, value = .int word ∧
        word.toInt = node.computed Word.wrapped machine.environment := by
  have computes := computes_expression limits enter isArithmetic
  refine ⟨fun undivided => ?_, fun division _ a b dividend divisor nonzero => ?_,
    computes.fails_iff, fun front division back => computes.first, fun value after ended => ?_⟩
  · have reduced := isArithmetic.computed_wrapped undivided
    rw [undivided, reduced] at computes
    generalize expression limits enter node machine = result at computes ⊢
    cases computes with
    | zero whole => simp at whole
    | ok _ same =>
        refine ⟨_, rfl, same, fun fits => ?_⟩
        rw [same, Word.wrapped_of_isSigned fits]
  · have isDivide : Operator.divide ∈ Operator.arithmetic := by decide
    obtain ⟨word, applied, same⟩ := Operator.apply_words isDivide fun _ => nonzero
    refine ⟨word, ?_, same.trans (Word.wrapped_tdiv (Word.isSigned_toInt a) b.toInt)⟩
    rw [Division.node, binary_applied (by decide) dividend divisor, applied]
  · rw [ended] at computes
    cases computes with
    | ok _ same => exact ⟨rfl, _, rfl, same⟩

/-- With the least word in a variable: a difference that is no word, the one quotient that is none,
and two divisions by zero behind it. -/
theorem expression_arithmetic_least :
    let place (column : Int) : Span := ⟨[], ⟨1, column⟩, ⟨1, column⟩⟩
    let environment := Environment.empty.set (utf8 "x") (.int (-9223372036854775808))
    let machine := Program.start ⟨.blank, none⟩ environment (.standard .none)
    let x : Node := .reference .blank (utf8 "x")
    let number (value : Int64) : Node := .number .blank value
    let divided (column : Int) (value : Int64) : Node :=
      .binary (place column) .divide x (number value)
    let sum : Node := .binary .blank .add (.binary .blank .subtract x (number 1)) (number 2)
    let failing : Node := .binary .blank .add (divided 1 (-1))
      (.binary .blank .multiply (divided 2 0) (divided 3 0))
    let evaluate (node : Node) := expression .none (invoke .none 0) node machine
    (∃ word : Int64, evaluate sum = .ok (.int word) machine ∧ word.toInt = -9223372036854775807) ∧
    (∃ word : Int64, evaluate (divided 1 (-1)) = .ok (.int word) machine ∧
      word.toInt = -Word.bound) ∧
    evaluate failing = .error (.fault ⟨.divisionByZero, some (place 2)⟩) machine := by
  intro place environment machine x number divided sum failing evaluate
  have bound : machine.environment.get? (utf8 "x") = some (.int (-9223372036854775808)) := by decide
  have isDivision (column : Int) (value : Int64) :
      (divided column value).IsArithmetic machine.environment :=
    .binary (by decide) (.reference bound) .number
  have isFailing : failing.IsArithmetic machine.environment :=
    .binary (by decide) (isDivision ..) (.binary (by decide) (isDivision ..) (isDivision ..))
  have isSum : sum.IsArithmetic machine.environment :=
    .binary (by decide) (.binary (by decide) (.reference bound) .number) .number
  obtain ⟨exact, _⟩ := expression_arithmetic .none (invoke .none 0) isSum
  obtain ⟨_, quotients, _, first, _⟩ := expression_arithmetic .none (invoke .none 0) isFailing
  refine ⟨?_, ?_, ?_⟩
  · obtain ⟨word, evaluated, _, same⟩ := exact rfl
    have value : sum.computed id machine.environment = -9223372036854775807 := by decide
    exact ⟨word, evaluated, (same (value ▸ by decide)).trans value⟩
  · exact quotients ⟨place 1, x, number (-1)⟩ (.head _) (-9223372036854775808) (-1)
      (Machine.lookup_of_some .blank bound) rfl (by decide)
  · refine first [⟨place 1, x, number (-1)⟩] ⟨place 2, x, number 0⟩ _ rfl ?_ rfl
    exact List.forall_mem_singleton.mpr fun isZero => by
      have same := (EStateM.Result.ok.inj isZero).1
      exact absurd (Value.int.inj same) (by decide)

end Evaluation

end Parlance
