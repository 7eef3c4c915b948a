import Parlance.Proofs.Printing.Statement

namespace Parlance

open Parlance.Derivation Scanner

/-!
Formatting and parsing undo each other. Every well-formed program is read back
from its canonical text, every program that is read is well-formed, and the
canonical text does not depend on places, so formatting twice changes nothing.
-/

namespace Printer

theorem needsParens_erased (parent : Operator) (isRight : Bool) (node : Node) :
    needsParens parent isRight node.erased = needsParens parent isRight node := by
  cases node <;> rfl

mutual

theorem expression_erased : ∀ node : Node, expression node.erased = expression node
  | .number .. => rfl
  | .string .. => rfl
  | .reference .. => rfl
  | .call _ _ arguments => by simp only [Node.erased, expression, expressions_erased arguments]
  | .binary _ _ left right => by
      simp only [Node.erased, expression, needsParens_erased, expression_erased left,
        expression_erased right]
  | .unary _ _ operand => by simp only [Node.erased, expression, expression_erased operand]
  | .block .. => rfl
  | .conditional .. => rfl
  | .declaration .. => rfl
  | .giveBack .. => rfl
  | .program .. => rfl

theorem expressions_erased : ∀ nodes : List Node, expressions (Node.erasedAll nodes) = expressions nodes
  | [] => rfl
  | node :: nodes => by
      simp only [Node.erasedAll, expressions, expression_erased node, expressions_erased nodes]

end

mutual

theorem statement_erased (depth : Nat) : ∀ node : Node, statement depth node.erased = statement depth node
  | .number .. => rfl
  | .string .. => rfl
  | .reference .. => rfl
  | .call span name arguments => by
      have same := expression_erased (.call span name arguments)
      simp only [Node.erased] at same
      simp only [Node.erased, statement, same]
  | .binary span operator left right => by
      have same := expression_erased (.binary span operator left right)
      simp only [Node.erased] at same
      simp only [Node.erased, statement, same]
  | .unary _ _ operand => by simp only [Node.erased, statement, expression_erased operand]
  | .block (.mk _ nodes) => by
      simp only [Node.erased, Block.erased, statement, statements_erased depth nodes]
  | .conditional _ condition body alternative => by
      simp only [Node.erased, statement, expression_erased condition, optionalBlock_erased depth body,
        otherwise_erased depth alternative]
  | .declaration _ _ _ body => by simp only [Node.erased, statement, optionalBlock_erased depth body]
  | .giveBack _ value => by simp only [Node.erased, statement, expression_erased value]
  | .program .. => rfl

theorem statements_erased (depth : Nat) :
    ∀ nodes : List Node, statements depth (Node.erasedAll nodes) = statements depth nodes
  | [] => rfl
  | node :: nodes => by
      simp only [Node.erasedAll, statements, statement_erased depth node, statements_erased depth nodes]

theorem optionalBlock_erased (depth : Nat) :
    ∀ body : Option Block, optionalBlock depth (Block.erasedOption body) = optionalBlock depth body
  | none => rfl
  | some (.mk _ nodes) => by
      simp only [Block.erasedOption, Block.erased, optionalBlock, block,
        statements_erased (depth + 1) nodes]

theorem otherwise_erased (depth : Nat) :
    ∀ alternative : Option Node,
      otherwise depth (Node.erasedOption alternative) = otherwise depth alternative
  | none => rfl
  | some (.conditional _ condition body alternative) => by
      simp only [Node.erasedOption, Node.erased, otherwise, expression_erased condition,
        optionalBlock_erased depth body, otherwise_erased depth alternative]
  | some (.block (.mk _ nodes)) => by
      simp only [Node.erasedOption, Node.erased, Block.erased, otherwise, block,
        statements_erased (depth + 1) nodes]
  | some (.number ..) => rfl
  | some (.string ..) => rfl
  | some (.reference ..) => rfl
  | some (.call ..) => rfl
  | some (.unary ..) => rfl
  | some (.binary ..) => rfl
  | some (.declaration ..) => rfl
  | some (.giveBack ..) => rfl
  | some (.program ..) => rfl

end

end Printer

open Printer

/-- The canonical text does not depend on places. -/
theorem Program.format_erased (program : Program) : program.erased.format = program.format := by
  rw [format_eq, format_eq, Program.statements_erased, Printer.statements_erased]

/-- A well-formed program is read back from its canonical text. -/
theorem parse_format (file : Text) {program : Program} (wellFormed : program.WellFormed) :
    ∃ again, parse file program.format = .ok again ∧ again.erased = program.erased := by
  obtain ⟨span, body⟩ := program
  match body, wellFormed with
  | some (.mk _ nodes), areStatements =>
    obtain ⟨tree, denotes, greedy, distinct, inRange, writes⟩ :=
      statements_readable 0 nodes areStatements
    have spelled := writes [] [] .nil
    rw [List.append_nil, List.append_nil] at spelled
    obtain ⟨again, accepted, same⟩ :=
      parse_of_derivation file spelled ⟨greedy _ (by decide), distinct, inRange⟩
    refine ⟨again, by rw [format_eq]; exact accepted, ?_⟩
    rw [same, Statements.program, denotes]
    rfl

/-- Parsing undoes formatting on well-formed programs, which are all that
parsing yields, and so formatting a second time changes nothing. -/
theorem format_round_trip :
    (∀ (file : Text) (program : Program), program.WellFormed →
      ∃ again, parse file program.format = .ok again ∧ again.erased = program.erased) ∧
    ∀ (file other source : Text) (program : Program), parse file source = .ok program →
      program.WellFormed ∧ format file source = .ok program.format ∧
      (∃ again, parse other program.format = .ok again ∧ again.erased = program.erased) ∧
      format other program.format = .ok program.format := by
  refine ⟨fun file program => parse_format file, ?_⟩
  intro file other source program accepted
  have wellFormed := wellFormed_of_parse accepted
  obtain ⟨again, accepted', same⟩ := parse_format other wellFormed
  refine ⟨wellFormed, by rw [format, accepted]; rfl, ⟨again, accepted', same⟩, ?_⟩
  rw [format, accepted', ← program.format_erased, ← same, again.format_erased]
  rfl

/-- A declaration whose body needs parentheses on either side of a product,
and a conditional with an alternative. -/
theorem format_round_trip_nested :
    let program : Program := ⟨.blank, some (.mk .blank [
      .declaration .blank (utf8 "f") [utf8 "a", utf8 "b_2"] (some (.mk .blank [
        .giveBack .blank (.binary .blank .multiply
          (.binary .blank .subtract (.reference .blank (utf8 "a")) (.number .blank 1))
          (.binary .blank .divide (.reference .blank (utf8 "b_2")) (.number .blank 2)))])),
      .conditional .blank (.binary .blank .less (.call .blank (utf8 "f") [.number .blank 3]) (.number .blank 4))
        (some (.mk .blank [.unary .blank .print (.string .blank (utf8 "'// no comment'"))]))
        (some (.block (.mk .blank [])))])⟩
    program.WellFormed ∧ ∃ again, parse [] program.format = .ok again ∧ again.erased = program.erased :=
  ⟨by decide +kernel, format_round_trip.1 [] _ (by decide +kernel)⟩

end Parlance
