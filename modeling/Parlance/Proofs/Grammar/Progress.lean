import Parlance.Proofs.Grammar.Following

namespace Parlance

open Grammar

/-!
Descent makes progress and stops. Every production ends wherever it is entered, takes at
least one token if it succeeds and never an end of file, and fails just if it leaves an
error behind. A loop goes on only if its pass has taken a token. So parsing with a cursor
ends with a program or the first error, which are those of the readers.
-/

namespace Cursor

/-- The tokens `passed` were taken, each of them once, and no end of file among them. -/
structure Moves (cursor : Cursor) (passed : List Token) (after : Cursor) : Prop where
  tokens : after.tokens = cursor.tokens
  last : after.last = cursor.last
  ahead : passed <+: cursor.tokens.drop cursor.position
  plain : ∀ token ∈ passed, token.kind ≠ .endOfFile
  taken : after.taken = cursor.taken ++ passed
  position : after.position = cursor.position + passed.length
  inside : after.position ≤ after.tokens.length

variable {cursor : Cursor} {passed rest : List Token} {stop : Token}

theorem Sees.moves (sees : cursor.Sees (passed ++ rest) stop) :
    cursor.Moves passed (cursor.after passed) := by
  have bound := sees.length_le
  rw [List.length_append] at bound
  have inside : cursor.position + passed.length ≤ cursor.tokens.length := by omega
  have within : passed.length ≤ (cursor.tokens.drop cursor.position).length := by
    rw [List.length_drop]
    omega
  obtain ⟨behind, ahead⟩ := sees.ahead
  rw [List.append_assoc] at ahead
  exact ⟨rfl, rfl,
    List.prefix_of_prefix_length_le ⟨_, ahead.symm⟩ (List.prefix_append _ _) within,
    fun token member => sees.plain token (List.mem_append_left rest member), rfl, rfl, inside⟩

/-- The current token is not the end of file. -/
theorem Sees.exists_first {front : List Token} (sees : cursor.Sees front stop) {kind : Kind}
    (found : cursor.current.kind = kind) (plain : kind ≠ .endOfFile) :
    ∃ first rest, front = first :: rest := by
  cases front with
  | nil =>
      rw [sees.current, List.head?_nil, Option.getD_none, sees.atEnd] at found
      exact absurd found.symm plain
  | cons first rest => exact ⟨first, rest, rfl⟩

end Cursor

namespace Descent

open Procedure (run)

/-- How a procedure has ended: nothing is returned just if there is an error, and an error that was
there before is there still. -/
structure Ends {α : Type} (cursor : Cursor) (passed : List Token) (outcome : Option α)
    (after : Cursor) : Prop where
  moves : cursor.Moves passed after
  fails : cursor.fault = none → (outcome = none ↔ after.fault ≠ none)
  keeps : ∀ error, cursor.fault = some error → after.fault = some error

theorem Performs.ends {α : Type} {cursor : Cursor} {front : List Token} {stop : Token}
    {answer : Answer α} {result : Option (Option α × Cursor)} (sees : cursor.Sees front stop)
    (performs : Performs cursor front answer result) :
    ∃ outcome after passed, result = some (outcome, after) ∧ Ends cursor passed outcome after ∧
      ∀ value, outcome = some value → ∃ rest, front = passed ++ rest ∧ answer = .ok (value, rest) := by
  cases performs with
  | @returned value passed rest whole =>
      subst whole
      refine ⟨some value, _, passed, rfl, ⟨sees.moves, fun none => ?_, fun _ => id⟩, ?_⟩
      · simp [Cursor.after, none]
      · intro other same
        cases same
        exact ⟨rest, rfl, rfl⟩
  | @refused error passed rest whole =>
      subst whole
      obtain ⟨tokens, last, ahead, plain, taken, position, inside⟩ := sees.moves
      refine ⟨none, _, passed, rfl, ⟨⟨tokens, last, ahead, plain, taken, position, inside⟩,
        fun none => ?_, fun error some => ?_⟩, by simp⟩
      · simp [Cursor.after, Cursor.refused, none]
      · simp [Cursor.after, Cursor.refused, some]

/-- A reader that leaves fewer tokens has a procedure that takes one. -/
theorem Performs.takes {α : Type} {cursor : Cursor} {front : List Token} {stop : Token}
    {answer : Answer α} {procedure : Descent α} {goesOn : α → Prop} (sees : cursor.Sees front stop)
    (performs : Performs cursor front answer (perform procedure cursor))
    (shorter : ∀ value rest, answer = .ok (value, rest) → goesOn value → rest.length < front.length) :
    ∃ outcome after passed, perform procedure cursor = some (outcome, after) ∧
      Ends cursor passed outcome after ∧
      ∀ value, outcome = some value → goesOn value → passed ≠ [] := by
  obtain ⟨outcome, after, passed, ended, ends, returned⟩ := performs.ends sees
  refine ⟨outcome, after, passed, ended, ends, fun value isValue goes => ?_⟩
  obtain ⟨rest, whole, read⟩ := returned value isValue
  have fewer := shorter value rest read goes
  rintro rfl
  rw [whole, List.nil_append] at fewer
  exact Nat.lt_irrefl _ fewer

inductive Production where
  | statement | declaration | giveBack | conditional | print | assignment | block | call
  | formula (level : Nat)

namespace Production

def Result : Production → Type
  | .block => Block
  | _ => Node

def procedure : (production : Production) → Descent production.Result
  | .statement => run .statement
  | .declaration => run .declaration
  | .giveBack => run .giveBack
  | .conditional => run .conditional
  | .print => run .print
  | .assignment => run .assignment
  | .block => run .block
  | .call => run .call
  | .formula level => run (.formula level)

/-- Some productions are entered only where their first tokens have been seen. -/
def Opens (cursor : Cursor) : Production → Prop
  | .declaration => cursor.current.kind = .keyword .function
  | .giveBack => cursor.current.kind = .keyword .giveBack
  | .conditional => cursor.current.kind = .keyword .ifWord
  | .print => cursor.current.kind = .keyword .print
  | .call => cursor.current.kind = .name ∧ cursor.nextKind = .mark .openParen
  | _ => True

variable {cursor : Cursor} {front : List Token} {stop : Token}

theorem performs (production : Production) (sees : cursor.Sees front stop)
    (opens : production.Opens cursor) :
    ∃ answer, Performs cursor front answer (perform production.procedure cursor) ∧
      ∀ value rest, answer = .ok (value, rest) → rest.length < front.length := by
  have atEnd := sees.atEnd
  -- Of the productions that take tokens unseen, the readers start behind these.
  have behind {α β : Type} {answer : Answer α} {make : α → β} {value : β} {rest others : List Token}
      (read : (answer.andThen fun value rest => .ok (make value, rest)) = .ok (value, rest))
      (shorter : ∀ value rest, answer = .ok (value, rest) → rest.length < others.length) :
      rest.length < others.length := by
    obtain ⟨first, middle, read, same⟩ := Answer.andThen_eq_ok read
    cases same
    exact shorter first rest read
  cases production with
  | statement =>
      exact ⟨_, (Follows.statements_follow atEnd front).1 cursor sees, fun _ _ => Answer.of_eq_ok⟩
  | declaration =>
      obtain ⟨first, rest, rfl⟩ := sees.exists_first opens (by simp)
      exact ⟨_, (Follows.statements_follow atEnd rest).2.1 first cursor sees,
        fun _ _ => Answer.of_eq_ok⟩
  | giveBack =>
      obtain ⟨first, rest, rfl⟩ := sees.exists_first opens (by simp)
      refine ⟨_, Follows.giveBack_follows atEnd first rest cursor sees, fun value others read => ?_⟩
      have fewer := behind read fun _ _ => Answer.of_eq_ok
      exact Nat.lt_succ_of_lt fewer
  | conditional =>
      obtain ⟨first, rest, rfl⟩ := sees.exists_first opens (by simp)
      exact ⟨_, (Follows.statements_follow atEnd rest).2.2.1 first cursor sees,
        fun _ _ => Answer.of_eq_ok⟩
  | print =>
      obtain ⟨first, rest, rfl⟩ := sees.exists_first opens (by simp)
      refine ⟨_, Follows.print_follows atEnd first rest cursor sees, fun value others read => ?_⟩
      have fewer := behind read fun _ _ => Answer.of_eq_ok
      exact Nat.lt_succ_of_lt fewer
  | assignment =>
      exact ⟨_, Follows.assignment_follows atEnd front cursor sees, fun _ _ => Answer.of_eq_ok⟩
  | block =>
      exact ⟨_, (Follows.statements_follow atEnd front).2.2.2.1 cursor sees,
        fun _ _ => Answer.of_eq_ok⟩
  | call =>
      obtain ⟨name, rest, rfl⟩ := sees.exists_first opens.1 (by simp)
      have follows : (rest.head?.getD stop).kind = .mark .openParen := sees.nextKind ▸ opens.2
      cases rest with
      | nil => simp [atEnd] at follows
      | cons opening rest =>
          refine ⟨_, Follows.call_follows (Follows.formulas_follow atEnd rest).2.2.2 cursor sees,
            fun value others read => ?_⟩
          have fewer := behind read fun _ _ => Answer.of_eq_ok
          exact Nat.lt_succ_of_lt (Nat.lt_succ_of_lt fewer)
  | formula level =>
      exact ⟨_, (Follows.formulas_follow atEnd front).1 level cursor sees,
        fun _ _ => Answer.of_eq_ok⟩

end Production

inductive Loop where
  | operators (level : Nat)
  | arguments
  | parameters (function : Text)
  | block
  | program

namespace Loop

/-- What a loop gathers. -/
def State : Loop → Type
  | .operators _ => Node
  | .parameters _ => List Text
  | _ => List Node

def procedure : (loop : Loop) → loop.State → Descent loop.State
  | .operators level => fun left => run (.operators level left)
  | .arguments => fun values => run (.arguments values)
  | .parameters function => fun names => run (.parameters function names)
  | .block => fun nodes => run (.statements nodes)
  | .program => fun nodes => run (.programStatements nodes)

def pass : (loop : Loop) → loop.State → Descent (loop.State × Bool)
  | .operators level => fun left => run (.operatorPass level left)
  | .arguments => fun values => run (.argumentPass values)
  | .parameters function => fun names => run (.parameterPass function names)
  | .block => fun nodes => run (.statementPass nodes)
  | .program => fun nodes => run (.programPass nodes)

theorem procedure_eq (loop : Loop) (state : loop.State) :
    loop.procedure state = do
      let (next, more) ← loop.pass state
      if more then loop.procedure next else return next := by
  cases loop with
  | operators level => exact Procedure.run.eq_def (.operators level state)
  | arguments => exact Procedure.run.eq_def (.arguments state)
  | parameters function => exact Procedure.run.eq_def (.parameters function state)
  | block => exact Procedure.run.eq_def (.statements state)
  | program => exact Procedure.run.eq_def (.programStatements state)

theorem performs (loop : Loop) (state : loop.State) {cursor : Cursor} {front : List Token}
    {stop : Token} (sees : cursor.Sees front stop) :
    ∃ answer, Performs cursor front answer (perform (loop.pass state) cursor) ∧
      ∀ gathered rest, answer = .ok (gathered, rest) → gathered.2 = true →
        rest.length < front.length := by
  have atEnd := sees.atEnd
  have formulas := Follows.formulas_follow atEnd
  have statements := Follows.statements_follow atEnd
  cases loop with
  | operators level =>
      refine ⟨_, Follows.operatorPass_follows atEnd level state front
        (fun shorter _ => (formulas shorter).1 level) cursor sees, ?_⟩
      rintro ⟨whole, more⟩ rest read rfl
      exact readOperator_shorter read
  | arguments =>
      exact ⟨_, Follows.argumentPass_follows atEnd state front ((formulas front).1 loosest) cursor sees,
        fun _ _ read _ => readArgument_shorter read⟩
  | parameters function =>
      exact ⟨_, Follows.parameterPass_follows atEnd function state front cursor sees,
        fun _ _ read _ => readParameter_shorter read⟩
  | block =>
      refine ⟨_, Follows.statementPass_follows atEnd state front (statements front).1 cursor sees, ?_⟩
      rintro ⟨whole, more⟩ rest read rfl
      exact readInner_shorter read
  | program =>
      refine ⟨_, Follows.programPass_follows atEnd state front cursor sees, ?_⟩
      rintro ⟨whole, more⟩ rest read rfl
      exact readOuter_shorter read

end Loop

/-- Parses with a cursor. The error in it, if there is one, decides what is returned; nothing is if
this runs on for ever. -/
def parse (file : Text) (tokens : List Token) : Option (Except SyntaxError (Option Program)) :=
  (perform (program file) (.start file tokens)).map fun (outcome, cursor) =>
    match cursor.fault with
    | none => .ok outcome
    | some error => .error error

theorem program_performs (file : Text) (tokens : List Token) :
    Performs (.start file tokens) (frontTokens tokens)
      ((readProgram (endToken file tokens) (frontTokens tokens)).andThen fun nodes rest =>
        .ok (framed file (endToken file tokens) (frontTokens tokens) nodes, rest))
      (perform (program file) (.start file tokens)) :=
  Follows.program_follows (kind_endToken file tokens) file _ _ (Cursor.start_sees file tokens)

theorem parse_eq (file : Text) (tokens : List Token) :
    parse file tokens = some ((parseTokens file tokens).map some) := by
  have performs := program_performs file tokens
  have clean := Cursor.start_fault file tokens
  rw [parse, parseTokens_eq]
  generalize perform (program file) (.start file tokens) = result at performs
  cases read : readProgram (endToken file tokens) (frontTokens tokens) with
  | error error =>
      rw [read] at performs
      cases performs with
      | refused whole => simp [Cursor.after, Cursor.refused, clean, Except.map]
  | ok answer =>
      rw [read] at performs
      cases performs with
      | returned whole => simp [Cursor.after, clean, Except.map]

/-- A program takes all tokens in front of the first end of file. -/
theorem program_ends (file : Text) (tokens : List Token) :
    ∃ outcome after passed, perform (program file) (.start file tokens) = some (outcome, after) ∧
      Ends (.start file tokens) passed outcome after ∧
      (outcome ≠ none → passed = frontTokens tokens) := by
  obtain ⟨outcome, after, passed, ended, ends, returned⟩ :=
    (program_performs file tokens).ends (Cursor.start_sees file tokens)
  refine ⟨outcome, after, passed, ended, ends, fun isSome => ?_⟩
  obtain ⟨program, rfl⟩ := Option.ne_none_iff_exists'.mp isSome
  obtain ⟨rest, whole, read⟩ := returned program rfl
  obtain ⟨nodes, left, read, same⟩ := Answer.andThen_eq_ok read
  cases same
  rw [whole, readProgram_leaves read, List.append_nil]

end Descent

open Descent

/-- Parsing makes progress and stops. Descent with a cursor comes to what the readers of token lists
answer, having taken all tokens in front of the first end of file if it succeeds. Wherever a
production may be entered it ends, and if it succeeds it has taken a token. A loop is its pass
repeated, and a pass after which it goes on has taken a token. -/
theorem parseTokens_progress :
    (∀ file tokens, Descent.parse file tokens = some ((parseTokens file tokens).map some) ∧
      ∃ outcome after passed,
        perform (program file) (.start file tokens) = some (outcome, after) ∧
        Ends (.start file tokens) passed outcome after ∧
        (outcome ≠ none → passed = frontTokens tokens)) ∧
    (∀ (production : Production) (cursor : Cursor), cursor.position ≤ cursor.tokens.length →
      production.Opens cursor →
      ∃ outcome after passed, perform production.procedure cursor = some (outcome, after) ∧
        Ends cursor passed outcome after ∧ (outcome ≠ none → passed ≠ [])) ∧
    ∀ (loop : Loop) (state : loop.State),
      (loop.procedure state = do
        let (next, more) ← loop.pass state
        if more then loop.procedure next else return next) ∧
      ∀ cursor : Cursor, cursor.position ≤ cursor.tokens.length →
        ∃ outcome after passed, perform (loop.pass state) cursor = some (outcome, after) ∧
          Ends cursor passed outcome after ∧
          ∀ next, outcome = some (next, true) → passed ≠ [] := by
  refine ⟨fun file tokens => ⟨parse_eq file tokens, program_ends file tokens⟩, ?_, ?_⟩
  · intro production cursor inside opens
    obtain ⟨front, stop, sees⟩ := Cursor.exists_sees inside
    obtain ⟨answer, performs, shorter⟩ := production.performs sees opens
    obtain ⟨outcome, after, passed, ended, ends, takes⟩ :=
      performs.takes sees fun value rest read (_ : True) => shorter value rest read
    refine ⟨outcome, after, passed, ended, ends, fun isSome => ?_⟩
    obtain ⟨value, isValue⟩ := Option.ne_none_iff_exists'.mp isSome
    exact takes value isValue trivial
  · intro loop state
    refine ⟨loop.procedure_eq state, fun cursor inside => ?_⟩
    obtain ⟨front, stop, sees⟩ := Cursor.exists_sees inside
    obtain ⟨answer, performs, shorter⟩ := loop.performs state sees
    obtain ⟨outcome, after, passed, ended, ends, takes⟩ := performs.takes sees shorter
    exact ⟨outcome, after, passed, ended, ends, fun next goesOn => takes (next, true) goesOn rfl⟩

/-- A call in front of an end of file, with more tokens behind it. -/
theorem parseTokens_progress_call :
    let cursor : Cursor := ⟨[⟨.name, utf8 "f", 0, .blank⟩, ⟨.mark .openParen, utf8 "(", 1, .blank⟩,
      ⟨.endOfFile, [], 2, .blank⟩, ⟨.mark .closeParen, utf8 ")", 2, .blank⟩],
      ⟨.endOfFile, [], 3, .blank⟩, rfl, 0, none, []⟩
    Production.call.Opens cursor ∧
      (∃ outcome after passed, perform (Procedure.run .call) cursor = some (outcome, after) ∧
        Ends cursor passed outcome after ∧ (outcome ≠ none → passed ≠ [])) ∧
      ∃ outcome after passed, perform (Procedure.run (.argumentPass [])) cursor = some (outcome, after) ∧
        Ends cursor passed outcome after ∧ ∀ next, outcome = some (next, true) → passed ≠ [] := by
  intro cursor
  have inside : cursor.position ≤ cursor.tokens.length := by decide
  have opens : Production.call.Opens cursor := ⟨rfl, rfl⟩
  obtain ⟨-, productions, loops⟩ := parseTokens_progress
  exact ⟨opens, productions .call cursor inside opens, (loops .arguments []).2 cursor inside⟩

end Parlance
