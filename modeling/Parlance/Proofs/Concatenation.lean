import Parlance.Proofs.Grammar.Uniqueness
import Parlance.Proofs.Scanning.Newline
import Parlance.Proofs.Source

namespace Parlance

open Grammar Scanner

/-!
Programs on consecutive lines. The text of one program, a newline and the text
of another are a program, and its statements are those of the one followed by
those of the other. The exception is a first program that ends with a return:
its formula may go on in the lines behind it.
-/

namespace Derivation

/-- Ends a statement that could have gone on. -/
def Separates (next : Terminal) : Prop :=
  next ≠ .keyword .terminator ∧ next ≠ .keyword .elseWord

theorem separates_of_starts {next : Terminal} (starts : next.kind ∈ statementWords ++ formulaStarts) :
    Separates next := by
  constructor <;> rintro rfl <;> exact absurd starts (by decide)

def Statements.append : Statements → Statements → Statements
  | .nil, second => second
  | .cons first others, second => .cons first (others.append second)

namespace Statements

theorem terminals_append (first second : Statements) :
    (first.append second).terminals = first.terminals ++ second.terminals := by
  match first with
  | .nil => rfl
  | .cons statement others =>
      rw [append, terminals, terminals_append others second, terminals, List.append_assoc]

theorem nodes_append (first second : Statements) :
    (first.append second).nodes = first.nodes ++ second.nodes := by
  match first with
  | .nil => rfl
  | .cons statement others =>
      rw [append, nodes, nodes_append others second, nodes, List.cons_append]

theorem distinct_append (first second : Statements) (distinct : first.Distinct)
    (distinct' : second.Distinct) : (first.append second).Distinct := by
  match first with
  | .nil => exact distinct'
  | .cons statement others => exact ⟨distinct.1, others.distinct_append second distinct.2 distinct'⟩

/-- Whatever the statements are, what stands first can follow other statements. -/
theorem head_separates (statements : Statements) :
    Separates (statements.terminals.headD .endOfFile) := by
  cases statements with
  | nil => exact ⟨nofun, nofun⟩
  | cons statement others =>
      obtain ⟨terminal, behind, whole, starts⟩ := statement.starts
      rw [terminals, whole]
      exact separates_of_starts starts

end Statements

section Greedy

variable {next : Terminal}

mutual

theorem Conditional.greedy_of_separates (tree : Conditional) (separates : Separates next)
    (greedy : tree.Greedy .endOfFile) : tree.Greedy next := by
  match tree with
  | .mk _ _ alternative =>
      exact ⟨greedy.1, greedy.2.1, alternative.greedy_of_separates separates greedy.2.2⟩

theorem Alternative.greedy_of_separates (tree : Alternative) (separates : Separates next)
    (greedy : tree.Greedy .endOfFile) : tree.Greedy next := by
  match tree with
  | .none => exact separates.2
  | .conditional conditional => exact conditional.greedy_of_separates separates greedy
  | .body _ => exact greedy

end

/-- Only the formula of a return reads on behind its statement. -/
theorem Statement.greedy_of_separates (tree : Statement) (separates : Separates next)
    (greedy : tree.Greedy .endOfFile)
    (closed : ∀ value terminated, tree ≠ .giveBack value terminated) : tree.Greedy next := by
  cases tree with
  | declaration name parameters body terminated => exact ⟨greedy.1, fun _ => separates.1⟩
  | giveBack value terminated => exact absurd rfl (closed value terminated)
  | conditional conditional terminated =>
      refine ⟨?_, fun _ => separates.1⟩
      cases terminated with
      | true => exact greedy.1
      | false => exact conditional.greedy_of_separates separates greedy.1
  | print operand => exact greedy
  | formula value => exact greedy
  | assignment left right => exact greedy

end Greedy

theorem Statements.greedy_append (first second : Statements) (greedy : first.Greedy .endOfFile)
    (greedy' : second.Greedy .endOfFile)
    (closed : ∀ value, first.nodes.getLast? ≠ some (.giveBack .blank value)) :
    (first.append second).Greedy .endOfFile := by
  match first with
  | .nil => exact greedy'
  | .cons statement .nil =>
      refine ⟨statement.greedy_of_separates second.head_separates greedy.1 ?_, greedy'⟩
      rintro value terminated rfl
      exact closed value.node rfl
  | .cons statement (.cons following others) =>
      have behind := (Statements.cons following others).greedy_append second greedy.2 greedy' closed
      refine ⟨?_, behind⟩
      -- The next statement is there already, so its first terminal is the same.
      obtain ⟨terminal, rest, whole, _⟩ := following.starts
      have ahead := greedy.1
      rw [terminals, whole] at ahead
      rw [terminals_append, terminals, whole]
      exact ahead

theorem Statements.valid_append {first second : Statements} (valid : first.Valid)
    (valid' : second.Valid)
    (closed : ∀ value, first.nodes.getLast? ≠ some (.giveBack .blank value)) :
    (first.append second).Valid where
  greedy := first.greedy_append second valid.greedy valid'.greedy closed
  distinct := first.distinct_append second valid.distinct valid'.distinct
  inRange terminal member := by
    rw [terminals_append] at member
    exact (List.mem_append.mp member).elim (valid.inRange terminal) (valid'.inRange terminal)

end Derivation

open Parlance.Derivation

theorem Scanner.spells_newline {source more : Text} {terminals terminals' : List Terminal}
    (spelled : Spells source terminals) (spelled' : Spells more terminals') :
    Spells (source ++ Text.newline :: more) (terminals ++ terminals') := by
  obtain ⟨tokens, scanned, mapped⟩ := scan_of_spells [] .origin 0 spelled
  obtain ⟨front, back, rfl, frontMapped, backMapped⟩ := List.map_eq_append_iff.mp mapped
  obtain ⟨last, rfl, _⟩ : ∃ last, back = [last] ∧ last.terminal = .endOfFile := by
    simpa [List.map_eq_cons_iff] using backMapped
  obtain ⟨others, scanned', mapped'⟩ :=
    scan_of_spells [] ⟨last.span.stop.line + 1, 1⟩ (last.offset + 1) spelled'
  have together := scan_newline_of_ok more scanned
  rw [scanned'] at together
  obtain ⟨all, spelledAll, mappedAll⟩ := spells_of_scan together
  rw [List.map_append, frontMapped, mapped', ← List.append_assoc] at mappedAll
  exact List.append_cancel_right mappedAll ▸ spelledAll

/-- The program with further statements behind its own. -/
def Program.followedBy (program : Program) (nodes : List Node) : Program :=
  ⟨program.span, some (.mk .blank (program.statements ++ nodes))⟩

theorem nodes_of_denoted {program : Program} {derivation : Statements}
    (denoted : program.erased = derivation.program) :
    derivation.nodes = program.statements.map Node.erased := by
  have same := program.statements_erased
  rw [denoted, Node.erasedAll_eq_map] at same
  exact same

/-- Two programs on consecutive lines are the program of all their statements. -/
theorem parse_newline (file : Text) {file' file'' source more : Text} {first second : Program}
    (accepted : parse file' source = .ok first) (accepted' : parse file'' more = .ok second)
    (closed : ∀ span value, first.statements.getLast? ≠ some (.giveBack span value)) :
    ∃ whole, parse file (source ++ Text.newline :: more) = .ok whole ∧
      whole.erased = (first.followedBy second.statements).erased := by
  obtain ⟨derivation, spelled, valid, denoted⟩ := derivation_of_parse accepted
  obtain ⟨derivation', spelled', valid', denoted'⟩ := derivation_of_parse accepted'
  have nodes := nodes_of_denoted denoted
  have nodes' := nodes_of_denoted denoted'
  have closed' : ∀ value, derivation.nodes.getLast? ≠ some (.giveBack .blank value) := by
    intro value ends
    rw [nodes, List.getLast?_map] at ends
    obtain ⟨node, ends, erased⟩ := Option.map_eq_some_iff.mp ends
    cases node with
    | giveBack span value => exact closed span value ends
    | _ => cases erased
  have spelledAll := spells_newline spelled spelled'
  rw [← Statements.terminals_append] at spelledAll
  obtain ⟨whole, parsed, wholeDenoted⟩ :=
    parse_of_derivation file spelledAll (Statements.valid_append valid valid' closed')
  refine ⟨whole, parsed, ?_⟩
  rw [wholeDenoted, Statements.program, Statements.nodes_append, nodes, nodes', ← List.map_append,
    ← Node.erasedAll_eq_map]
  rfl

end Parlance
