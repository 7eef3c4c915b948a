import Parlance.Proofs.Grammar.Descent
import Parlance.Proofs.Grammar.Passes
import Parlance.Proofs.Incomplete

namespace Parlance

open Grammar

/-!
The procedures of the descent do as the readers of token lists do. What a reader answers
to the tokens in front of the next end of file is what the procedure returns, and the
tokens that the reader passes are those that the procedure takes.
-/

/-- Some end of file comes first, if not an earlier one then the last token. -/
theorem exists_front (tokens : List Token) {last : Token} (ended : last.kind = .endOfFile) :
    ∃ front stop behind, tokens ++ [last] = front ++ stop :: behind ∧ stop.kind = .endOfFile ∧
      ∀ token ∈ front, token.kind ≠ .endOfFile := by
  induction tokens with
  | nil => exact ⟨[], last, [], rfl, ended, by simp⟩
  | cons token rest inductionHypothesis =>
      by_cases isEnd : token.kind = .endOfFile
      · exact ⟨[], token, rest ++ [last], rfl, isEnd, by simp⟩
      · obtain ⟨front, stop, behind, whole, atEnd, plain⟩ := inductionHypothesis
        exact ⟨token :: front, stop, behind, congrArg (token :: ·) whole, atEnd,
          List.forall_mem_cons.mpr ⟨isEnd, plain⟩⟩

namespace Cursor

variable {cursor : Cursor} {front passed rest : List Token} {token stop : Token}

/-- In front of the next end of file, `stop`, stand the tokens `front`. -/
structure Sees (cursor : Cursor) (front : List Token) (stop : Token) : Prop where
  ahead : ∃ behind, cursor.tokens.drop cursor.position ++ [cursor.last] = front ++ stop :: behind
  inside : cursor.position ≤ cursor.tokens.length
  plain : ∀ token ∈ front, token.kind ≠ .endOfFile
  atEnd : stop.kind = .endOfFile

/-- The cursor behind tokens that were taken. -/
def after (cursor : Cursor) (passed : List Token) : Cursor :=
  { cursor with position := cursor.position + passed.length, taken := cursor.taken ++ passed }

theorem after_nil (cursor : Cursor) : cursor.after [] = cursor := by
  simp [after]

theorem after_after (cursor : Cursor) (passed more : List Token) :
    (cursor.after passed).after more = cursor.after (passed ++ more) := by
  simp [after, Nat.add_assoc]

theorem exists_sees (inside : cursor.position ≤ cursor.tokens.length) :
    ∃ front stop, cursor.Sees front stop := by
  obtain ⟨front, stop, behind, whole, atEnd, plain⟩ :=
    exists_front (cursor.tokens.drop cursor.position) cursor.ended
  exact ⟨front, stop, ⟨behind, whole⟩, inside, plain, atEnd⟩

namespace Sees

theorem length_le (sees : cursor.Sees front stop) :
    cursor.position + front.length ≤ cursor.tokens.length := by
  obtain ⟨behind, ahead⟩ := sees.ahead
  have inside := sees.inside
  have lengths := congrArg List.length ahead
  simp only [List.length_append, List.length_drop, List.length_cons, List.length_nil] at lengths
  omega

theorem current (sees : cursor.Sees front stop) : cursor.current = front.head?.getD stop := by
  obtain ⟨behind, ahead⟩ := sees.ahead
  have heads := congrArg List.head? ahead
  rw [List.head?_append, List.head?_drop, List.head?_append] at heads
  unfold Cursor.current
  cases front <;> cases found : cursor.tokens[cursor.position]? <;> simp_all

theorem after (sees : cursor.Sees (passed ++ rest) stop) : (cursor.after passed).Sees rest stop := by
  have bound := sees.length_le
  rw [List.length_append] at bound
  obtain ⟨behind, ahead⟩ := sees.ahead
  refine ⟨⟨behind, ?_⟩, ?_, fun token member => sees.plain token (by simp [member]), sees.atEnd⟩
  · have dropped := congrArg (List.drop passed.length) ahead
    rw [List.drop_append_of_le_length (by rw [List.length_drop]; omega), List.drop_drop,
      List.append_assoc, List.drop_left] at dropped
    exact dropped
  · show cursor.position + passed.length ≤ cursor.tokens.length
    omega

theorem skip (sees : cursor.Sees (token :: rest) stop) : (cursor.after [token]).Sees rest stop :=
  after sees

theorem advanced (sees : cursor.Sees (token :: rest) stop) :
    cursor.advanced = cursor.after [token] := by
  have bound := sees.length_le
  rw [List.length_cons] at bound
  have inside : cursor.position < cursor.tokens.length := by omega
  simp [Cursor.advanced, Cursor.after, inside, sees.current]

theorem nextKind (sees : cursor.Sees (token :: rest) stop) :
    cursor.nextKind = (rest.head?.getD stop).kind := by
  rw [← sees.skip.current]
  unfold Cursor.nextKind Cursor.current
  show _ = (cursor.tokens[cursor.position + 1]?.getD cursor.last).kind
  cases cursor.tokens[cursor.position + 1]? with
  | none => exact cursor.ended.symm
  | some next => rfl

end Sees

theorem start_fault (file : Text) (tokens : List Token) : (start file tokens).fault = none := by
  unfold start
  split
  · rfl
  · split <;> rfl

/-- The list is divided by its first end of file, or there is none. -/
theorem frontTokens_find (tokens : List Token) :
    (∃ stop behind, tokens.find? (fun token => token.kind = .endOfFile) = some stop ∧
      tokens = frontTokens tokens ++ stop :: behind) ∨
    tokens.find? (fun token => token.kind = .endOfFile) = none ∧ frontTokens tokens = tokens := by
  induction tokens with
  | nil => exact .inr ⟨rfl, rfl⟩
  | cons token rest inductionHypothesis =>
      by_cases isEnd : token.kind = .endOfFile
      · exact .inl ⟨token, rest, by simp [isEnd], by simp [frontTokens, isEnd]⟩
      · have front : frontTokens (token :: rest) = token :: frontTokens rest := by
          simp [frontTokens, isEnd]
        rw [List.find?_cons_of_neg (by simpa using isEnd), front]
        obtain ⟨stop, behind, found, whole⟩ | ⟨absent, whole⟩ := inductionHypothesis
        · exact .inl ⟨stop, behind, found, congrArg (token :: ·) whole⟩
        · exact .inr ⟨absent, congrArg (token :: ·) whole⟩

/-- The first cursor sees the tokens in front of the first end of file. -/
theorem start_sees (file : Text) (tokens : List Token) :
    (start file tokens).Sees (frontTokens tokens) (endToken file tokens) := by
  have plain : ∀ token ∈ frontTokens tokens, token.kind ≠ .endOfFile := fun token member => by
    simpa using List.all_eq_true.mp List.all_takeWhile token member
  refine ⟨?_, ?_, plain, kind_endToken file tokens⟩
  · unfold start endToken
    cases found : tokens.getLast? with
    | none =>
        cases List.getLast?_eq_none_iff.mp found
        exact ⟨[], rfl⟩
    | some last =>
        obtain ⟨others, rfl⟩ := List.getLast?_eq_some_iff.mp found
        obtain ⟨stop, behind, first, divided⟩ | ⟨absent, whole⟩ := frontTokens_find (others ++ [last])
        · rw [first]
          by_cases isEnd : last.kind = .endOfFile
          · refine ⟨behind, ?_⟩
            simp only [dif_pos isEnd, List.dropLast_concat, List.drop_zero]
            exact divided
          · refine ⟨behind ++ [⟨.endOfFile, [], last.offset + last.value.length, last.span.atEnd⟩], ?_⟩
            simp only [dif_neg isEnd, List.drop_zero]
            rw [← List.cons_append, ← List.append_assoc, ← divided]
        · have notEnd : last.kind ≠ .endOfFile := by
            simpa using List.find?_eq_none.mp absent last (by simp)
          refine ⟨[], ?_⟩
          simp only [dif_neg notEnd, absent, whole, List.drop_zero]
  · unfold start
    split
    · exact Nat.zero_le _
    · split <;> exact Nat.zero_le _

end Cursor

namespace Descent

section Steps

variable {α β : Type} (cursor : Cursor)

theorem perform_pure (value : α) : perform (pure value) cursor = some (some value, cursor) :=
  rfl

theorem perform_bind (procedure : Descent α) (next : α → Descent β) :
    perform (procedure >>= next) cursor =
      (perform procedure cursor).bind fun
        | (none, after) => some (none, after)
        | (some value, after) => perform (next value) after := by
  unfold perform
  rw [OptionT.run_bind, Option.elimM, StateT.run_bind]
  cases procedure.run.run cursor with
  | none => rfl
  | some result =>
      obtain ⟨outcome, after⟩ := result
      cases outcome <;> rfl

theorem perform_current (next : Token → Descent β) :
    perform (current >>= next) cursor = perform (next cursor.current) cursor :=
  rfl

theorem perform_nextKind (next : Kind → Descent β) :
    perform (nextKind >>= next) cursor = perform (next cursor.nextKind) cursor :=
  rfl

theorem perform_advance (next : Token → Descent β) :
    perform (advance >>= next) cursor = perform (next cursor.current) cursor.advanced :=
  rfl

theorem perform_refuse (token : Token) (fault : SyntaxFault) :
    perform (refuse token fault : Descent α) cursor = some (none, cursor.refused ⟨token, fault⟩) :=
  rfl

end Steps

/-- What a procedure comes to, against what a reader answers to the tokens it sees. -/
inductive Performs {α : Type} (cursor : Cursor) (front : List Token) :
    Answer α → Option (Option α × Cursor) → Prop
  | returned {value : α} {passed rest : List Token} (whole : front = passed ++ rest) :
      Performs cursor front (.ok (value, rest)) (some (some value, cursor.after passed))
  | refused {error : SyntaxError} {passed rest : List Token} (whole : front = passed ++ rest) :
      Performs cursor front (.error error) (some (none, (cursor.after passed).refused error))

/-- A procedure does as a reader does, wherever these tokens are seen. -/
def Follows {α : Type} (stop : Token) (front : List Token) (answer : Answer α)
    (procedure : Descent α) : Prop :=
  ∀ cursor, cursor.Sees front stop → Performs cursor front answer (perform procedure cursor)

theorem Performs.further {α : Type} {cursor : Cursor} {passed rest : List Token}
    {answer : Answer α} {result : Option (Option α × Cursor)}
    (performs : Performs (cursor.after passed) rest answer result) :
    Performs cursor (passed ++ rest) answer result := by
  cases performs with
  | returned whole =>
      rw [Cursor.after_after]
      exact .returned (by rw [whole, List.append_assoc])
  | refused whole =>
      rw [Cursor.after_after]
      exact .refused (by rw [whole, List.append_assoc])

namespace Follows

open Procedure (run)

section Steps

variable {α β : Type} {stop token : Token} {front rest : List Token} {answer : Answer α}
  {procedure : Descent α}

theorem stay (value : α) (front : List Token) :
    Follows stop front (.ok (value, front)) (pure value) := by
  intro cursor sees
  have performs : Performs cursor front (.ok (value, front)) (some (some value, cursor.after [])) :=
    .returned rfl
  rw [Cursor.after_nil] at performs
  rw [perform_pure]
  exact performs

theorem refuse (token : Token) (fault : SyntaxFault) (front : List Token) :
    Follows stop front (.error ⟨token, fault⟩ : Answer α) (refuse token fault) := by
  intro cursor sees
  have performs : Performs cursor front (.error ⟨token, fault⟩ : Answer α)
      (some (none, (cursor.after []).refused ⟨token, fault⟩)) := .refused rfl
  rw [Cursor.after_nil] at performs
  rw [perform_refuse]
  exact performs

/-- Only tokens in front of the end of file are seen. -/
theorem of_plain (follows : (∀ token ∈ front, token.kind ≠ .endOfFile) →
    Follows stop front answer procedure) : Follows stop front answer procedure :=
  fun cursor sees => follows sees.plain cursor sees

theorem andThen {next : α → List Token → Answer β} {continuation : α → Descent β}
    (first : Follows stop front answer procedure)
    (continues : ∀ value rest, answer = .ok (value, rest) →
      Follows stop rest (next value rest) (continuation value)) :
    Follows stop front (answer.andThen next) (procedure >>= continuation) := by
  intro cursor sees
  have performs := first cursor sees
  rw [perform_bind]
  generalize perform procedure cursor = result at performs
  cases performs with
  | @returned value passed rest whole =>
      subst whole
      exact (continues value rest rfl _ sees.after).further
  | refused whole => exact .refused whole

theorem map (first : Follows stop front answer procedure) (make : α → β) :
    Follows stop front (answer.andThen fun value rest => .ok (make value, rest))
      (procedure >>= fun value => pure (make value)) :=
  first.andThen fun value rest _ => .stay (make value) rest

theorem current {next : Token → Descent α}
    (follows : Follows stop front answer (next (front.head?.getD stop))) :
    Follows stop front answer (Descent.current >>= next) := by
  intro cursor sees
  rw [perform_current, sees.current]
  exact follows cursor sees

theorem nextKind {next : Kind → Descent α}
    (follows : Follows stop (token :: rest) answer (next (rest.head?.getD stop).kind)) :
    Follows stop (token :: rest) answer (Descent.nextKind >>= next) := by
  intro cursor sees
  rw [perform_nextKind, sees.nextKind]
  exact follows cursor sees

theorem advance {next : Token → Descent α} (follows : Follows stop rest answer (next token)) :
    Follows stop (token :: rest) answer (Descent.advance >>= next) := by
  intro cursor sees
  rw [perform_advance, sees.advanced, sees.current]
  exact (follows _ sees.skip).further

end Steps

section Tokens

variable {stop : Token} (atEnd : stop.kind = .endOfFile)

include atEnd

theorem expect {kind : Kind} (plain : kind ≠ .endOfFile) (tokens : List Token) :
    Follows stop tokens (readToken stop kind tokens) (Descent.expect kind) := by
  unfold Descent.expect
  cases tokens with
  | nil =>
      refine current ?_
      rw [List.head?_nil, Option.getD_none, if_neg (atEnd ▸ plain.symm)]
      exact refuse _ _ _
  | cons token rest =>
      refine current ?_
      rw [List.head?_cons, Option.getD_some, readToken_cons]
      split
      · exact advance (.stay token rest)
      · exact refuse _ _ _

theorem accept {kind : Kind} (plain : kind ≠ .endOfFile) (tokens : List Token) :
    Follows stop tokens (readAccept kind tokens) (Descent.accept kind) := by
  unfold Descent.accept
  cases tokens with
  | nil =>
      refine current ?_
      rw [List.head?_nil, Option.getD_none, if_neg (atEnd ▸ plain.symm)]
      exact stay _ _
  | cons token rest =>
      refine current ?_
      rw [List.head?_cons, Option.getD_some, readAccept]
      split
      · exact advance (.stay true rest)
      · exact stay _ _

end Tokens

section Formulas

variable {stop : Token} (atEnd : stop.kind = .endOfFile)

/-- A list that goes on from the values so far, up to its closing parenthesis. -/
def closed (values : List Node) : Descent (List Node × Token) := do
  let closing ← close
  return (values, closing)

variable (stop) in
def FormulaFollows (level : Nat) (tokens : List Token) : Prop :=
  Follows stop tokens (readFormula stop level tokens) (run (.formula level))

variable (stop) in
def ChainFollows (level : Nat) (tokens : List Token) : Prop :=
  ∀ left, Follows stop tokens (readChain stop level left tokens) (run (.operators level left))

variable (stop) in
def ValuesFollow (tokens : List Token) : Prop :=
  ∀ values, Follows stop tokens
    ((readValues stop tokens).andThen fun read rest => .ok ((values ++ read.1, read.2), rest))
    (run (.arguments values) >>= closed)

variable (stop) in
def ArgumentsFollow (tokens : List Token) : Prop :=
  Follows stop tokens (readArguments stop tokens) (run .argumentList >>= closed)

theorem call_follows {name opening : Token} {rest : List Token} (follow : ArgumentsFollow stop rest) :
    Follows stop (name :: opening :: rest)
      ((readArguments stop rest).andThen fun read rest =>
        .ok (.call (name.span.cover read.2.span) name.value read.1, rest)) (run .call) := by
  have regrouped : run .call = (do
      let name ← Descent.advance
      let _ ← Descent.advance
      let read ← run .argumentList >>= closed
      return Node.call (name.span.cover read.2.span) name.value read.1) := by
    rw [run]
    simp only [closed, bind_assoc, pure_bind]
  rw [regrouped]
  exact advance (advance (follow.map _))

include atEnd

theorem primary_follows (tokens : List Token)
    (shorter : ∀ shorter : List Token, shorter.length < tokens.length →
      FormulaFollows stop loosest shorter ∧ ArgumentsFollow stop shorter) :
    FormulaFollows stop 0 tokens := by
  unfold FormulaFollows
  rw [run, run]
  refine current ?_
  cases tokens with
  | nil =>
      rw [readFormula_nil, List.head?_nil, Option.getD_none, atEnd]
      exact refuse _ _ _
  | cons token rest =>
      rw [List.head?_cons, Option.getD_some]
      split
      · next isOpen =>
          rw [readPrimary_group stop isOpen]
          refine advance ((shorter rest (by simp)).1.andThen fun inner behind _ => ?_)
          exact (expect atEnd (by simp) behind).map _
      · next isNumber =>
          rw [readPrimary_number stop isNumber]
          refine advance ?_
          cases Text.toInt64? token.value with
          | none => exact refuse _ _ _
          | some value => exact stay _ _
      · next isString =>
          rw [readPrimary_string stop isString]
          exact advance (.stay _ rest)
      · next isName =>
          refine nextKind ?_
          split
          · next isCall =>
              cases rest with
              | nil => simp [atEnd] at isCall
              | cons opening others =>
                  have opens : opening.kind = .mark .openParen := isCall
                  rw [readPrimary_call stop isName opens]
                  exact call_follows (shorter others (by simp only [List.length_cons]; omega)).2
          · next noCall =>
              rw [readPrimary_reference stop isName (by cases rest <;> simp_all)]
              exact advance (.stay _ rest)
      · next notOpen notNumber notString notName =>
          rw [readPrimary_refused stop (by simp [formulaStarts]; grind)]
          exact refuse _ _ _

omit atEnd in
theorem level_follows (level : Nat) (tokens : List Token) (below : FormulaFollows stop level tokens)
    (chain : ∀ shorter : List Token, shorter.length < tokens.length →
      ChainFollows stop level shorter) : FormulaFollows stop (level + 1) tokens := by
  unfold FormulaFollows
  rw [run, readFormula_succ]
  exact below.andThen fun left rest read => chain rest (Answer.of_eq_ok read) left

theorem operatorPass_follows (level : Nat) (left : Node) (tokens : List Token)
    (shorter : ∀ shorter : List Token, shorter.length < tokens.length →
      FormulaFollows stop level shorter) :
    Follows stop tokens (readOperator stop level left tokens) (run (.operatorPass level left)) := by
  rw [run]
  refine current ?_
  cases tokens with
  | nil =>
      have none : operator? level stop.kind = none := by rw [atEnd]; unfold operator?; grind
      simp only [List.head?_nil, Option.getD_none, none]
      exact stay _ _
  | cons token rest =>
      rw [List.head?_cons, Option.getD_some, readOperator]
      cases operator? level token.kind with
      | none => exact stay _ _
      | some operator => exact advance ((shorter rest (by simp)).map _)

theorem chain_follows (level : Nat) (tokens : List Token)
    (shorter : ∀ shorter : List Token, shorter.length < tokens.length →
      FormulaFollows stop level shorter ∧ ChainFollows stop level shorter) :
    ChainFollows stop level tokens := by
  intro left
  have pass := operatorPass_follows atEnd level left tokens fun other less => (shorter other less).1
  rw [run, readChain_pass]
  refine pass.andThen fun gathered rest read => ?_
  obtain ⟨whole, more⟩ := gathered
  cases more with
  | false => exact stay _ _
  | true => exact (shorter rest (readOperator_shorter read)).2 whole

theorem close_follows (tokens : List Token) : Follows stop tokens (readClose stop tokens) close := by
  unfold close
  refine current ?_
  cases tokens with
  | nil =>
      rw [List.head?_nil, Option.getD_none, if_neg (by simp [atEnd])]
      exact refuse _ _ _
  | cons token rest =>
      rw [List.head?_cons, Option.getD_some, readClose]
      split
      · exact advance (.stay token rest)
      · exact refuse _ _ _

theorem argumentPass_follows (values : List Node) (tokens : List Token)
    (formula : FormulaFollows stop loosest tokens) :
    Follows stop tokens (readArgument stop values tokens) (run (.argumentPass values)) := by
  rw [run]
  exact formula.andThen fun value rest _ => (accept atEnd (by simp) rest).map _

theorem values_follow (tokens : List Token) (formula : FormulaFollows stop loosest tokens)
    (shorter : ∀ shorter : List Token, shorter.length < tokens.length → ValuesFollow stop shorter) :
    ValuesFollow stop tokens := by
  intro values
  rw [run, bind_assoc, readValues_pass]
  refine (argumentPass_follows atEnd values tokens formula).andThen fun gathered rest read => ?_
  obtain ⟨values, more⟩ := gathered
  cases more with
  | false => exact (close_follows atEnd rest).map _
  | true => exact shorter rest (readArgument_shorter read) values

theorem arguments_follow (tokens : List Token) (values : ValuesFollow stop tokens) :
    ArgumentsFollow stop tokens := by
  unfold ArgumentsFollow
  rw [run, bind_assoc]
  refine current ?_
  cases tokens with
  | nil =>
      rw [List.head?_nil, Option.getD_none, if_neg (by simp [atEnd]), readArguments_nil]
      have refused := values []
      rw [readValues_eq, readFormula_nil] at refused
      exact refused
  | cons token rest =>
      rw [List.head?_cons, Option.getD_some, readArguments_cons]
      split
      · next closing =>
          have closes := (close_follows atEnd (token :: rest)).map fun last => (([] : List Node), last)
          rw [readClose, if_pos closing] at closes
          exact closes
      · rw [← Answer.andThen_same (readValues stop (token :: rest))]
        exact values []

theorem formulas_follow (tokens : List Token) :
    (∀ level, FormulaFollows stop level tokens) ∧ (∀ level, ChainFollows stop level tokens) ∧
      ValuesFollow stop tokens ∧ ArgumentsFollow stop tokens :=
  formulas_induction (primary_follows atEnd) level_follows (chain_follows atEnd) (values_follow atEnd)
    (arguments_follow atEnd) tokens

end Formulas

section Parameters

variable {stop : Token} (atEnd : stop.kind = .endOfFile)

include atEnd

theorem parameterPass_follows (function : Text) (names : List Text) (tokens : List Token) :
    Follows stop tokens (readParameter stop function names tokens)
      (run (.parameterPass function names)) := by
  rw [run]
  refine (expect atEnd (by simp) tokens).andThen fun name rest _ => ?_
  split
  · exact refuse _ _ _
  · exact (accept atEnd (by simp) rest).map _

theorem parameters_follow (function : Text) (names : List Text) (tokens : List Token) :
    Follows stop tokens
      ((readNames stop function names tokens).andThen fun more rest => .ok (names ++ more, rest))
      (run (.parameters function names)) := by
  induction length : tokens.length using Nat.strongRecOn generalizing tokens names with
  | _ size inductionHypothesis =>
      subst length
      rw [run, readNames_pass]
      refine (parameterPass_follows atEnd function names tokens).andThen fun gathered rest read => ?_
      obtain ⟨names', more⟩ := gathered
      cases more with
      | false => exact stay _ _
      | true => exact inductionHypothesis _ (readParameter_shorter read) names' rest rfl

theorem parameterList_follows (function : Text) (tokens : List Token) :
    Follows stop tokens (readParameters stop function tokens)
      (do let names ← run (.parameterList function); let _ ← close; return names) := by
  have closes (names : List Text) (rest : List Token) :
      Follows stop rest (readClosing stop names rest) (do let _ ← close; return names) := by
    have follows := (close_follows atEnd rest).map fun _ => names
    cases rest with
    | nil => exact follows
    | cons closing rest =>
        rw [readClose] at follows
        rw [readClosing]
        split
        · next isClose => rw [if_pos isClose] at follows; exact follows
        · next notClose => rw [if_neg notClose] at follows; exact follows
  have list := (parameters_follow atEnd function [] tokens).andThen fun names rest _ => closes names rest
  simp only [List.nil_append, Answer.andThen_same] at list
  rw [run, bind_assoc]
  refine current ?_
  cases tokens with
  | nil =>
      rw [List.head?_nil, Option.getD_none, if_neg (by simp [atEnd])]
      exact list
  | cons token rest =>
      rw [List.head?_cons, Option.getD_some, readParameters_cons]
      split
      · next isClose =>
          have follows := closes [] (token :: rest)
          rw [readClosing, if_pos isClose] at follows
          exact follows
      · exact list

end Parameters

section Statements

variable {stop : Token}

variable (stop) in
def StatementFollows (tokens : List Token) : Prop :=
  Follows stop tokens (readStatement stop tokens) (run .statement)

variable (stop) in
def DeclarationFollows (tokens : List Token) : Prop :=
  ∀ first, Follows stop (first :: tokens) (readDeclaration stop first tokens) (run .declaration)

variable (stop) in
def ConditionalFollows (tokens : List Token) : Prop :=
  ∀ first, Follows stop (first :: tokens) (readConditional stop first tokens) (run .conditional)

variable (stop) in
def BlockFollows (tokens : List Token) : Prop :=
  Follows stop tokens (readBlock stop tokens) (run .block)

variable (stop) in
def StatementsFollow (tokens : List Token) : Prop :=
  ∀ nodes, Follows stop tokens
    ((readStatements stop tokens).andThen fun read rest => .ok ((nodes ++ read.1, read.2), rest))
    (do let nodes ← run (.statements nodes); let last ← Descent.advance; return (nodes, last))

variable (atEnd : stop.kind = .endOfFile)

include atEnd

theorem formula_follows (tokens : List Token) :
    Follows stop tokens (readFormula stop loosest tokens) (run (.formula loosest)) :=
  (formulas_follow atEnd tokens).1 loosest

theorem selfDelimited_follows (node : Node) (tokens : List Token) :
    Follows stop tokens (skipTerminator node tokens) (selfDelimited node) := by
  rw [skipTerminator_eq]
  exact (accept atEnd (by simp) tokens).map _

theorem terminated_follows (node : Node) (tokens : List Token) :
    Follows stop tokens (readTerminator stop node tokens) (terminated node) :=
  (expect atEnd (by simp) tokens).map _

theorem assignment_follows (tokens : List Token) :
    Follows stop tokens (readAssignment stop tokens) (run .assignment) := by
  rw [run, readAssignment_eq]
  refine (formula_follows atEnd tokens).andThen fun left rest _ => ?_
  rw [readRightSide_eq]
  refine (accept atEnd (by simp) rest).andThen fun assigns rest _ => ?_
  cases assigns with
  | false => exact stay _ _
  | true => exact (formula_follows atEnd rest).map _

theorem giveBack_follows (first : Token) (tokens : List Token) :
    Follows stop (first :: tokens)
      ((readFormula stop loosest tokens).andThen fun value rest =>
        .ok (.giveBack (first.span.cover value.span) value, rest)) (run .giveBack) := by
  rw [run]
  exact advance ((formula_follows atEnd tokens).map _)

theorem print_follows (first : Token) (tokens : List Token) :
    Follows stop (first :: tokens)
      ((readFormula stop loosest tokens).andThen fun operand rest =>
        .ok (.unary (first.span.cover operand.span) .print operand, rest)) (run .print) := by
  rw [run]
  exact advance ((formula_follows atEnd tokens).map _)

theorem statement_follows (tokens : List Token)
    (shorter : ∀ shorter : List Token, shorter.length < tokens.length →
      DeclarationFollows stop shorter ∧ ConditionalFollows stop shorter) :
    StatementFollows stop tokens := by
  unfold StatementFollows
  rw [run]
  refine current ?_
  cases tokens with
  | nil =>
      have refused := (assignment_follows atEnd []).andThen fun node rest _ =>
        terminated_follows atEnd node rest
      rw [readAssignment_eq, readFormula_nil] at refused
      rw [readStatement_nil, List.head?_nil, Option.getD_none, atEnd]
      exact refused
  | cons token rest =>
      have delimited (node : Node) (rest : List Token) := selfDelimited_follows atEnd node rest
      have ended (node : Node) (rest : List Token) := terminated_follows atEnd node rest
      rw [List.head?_cons, Option.getD_some]
      split
      · next word =>
          rw [readStatement_declaration stop word]
          exact ((shorter rest (by simp)).1 token).andThen fun node rest _ => delimited node rest
      · next word =>
          rw [readStatement_giveBack stop word]
          have follows := (giveBack_follows atEnd token rest).andThen fun node rest _ => delimited node rest
          rw [Answer.andThen_assoc] at follows
          exact follows
      · next word =>
          rw [readStatement_conditional stop word]
          exact ((shorter rest (by simp)).2 token).andThen fun node rest _ => delimited node rest
      · next word =>
          rw [readStatement_print stop word]
          have follows := (print_follows atEnd token rest).andThen fun node rest _ => ended node rest
          rw [Answer.andThen_assoc] at follows
          exact follows
      · next notFunction notGiveBack notIf notPrint =>
          rw [readStatement_plain stop (by simp [statementWords]; grind)]
          exact (assignment_follows atEnd (token :: rest)).andThen fun node rest _ => ended node rest

theorem declaration_follows (tokens : List Token)
    (shorter : ∀ shorter : List Token, shorter.length < tokens.length → BlockFollows stop shorter) :
    DeclarationFollows stop tokens := by
  intro first
  have regrouped : run .declaration = (do
      let first ← Descent.advance
      let name ← Descent.expect .name
      let _ ← Descent.expect (.mark .openParen)
      let names ← (do let names ← run (.parameterList name.value); let _ ← close; return names)
      let body ← run .block
      return Node.declaration (first.span.cover body.span) name.value names (some body)) := by
    rw [run]
    simp only [bind_assoc, pure_bind]
  rw [regrouped, readDeclaration_eq]
  refine advance ((expect atEnd (by simp) tokens).andThen fun name rest named => ?_)
  refine (expect atEnd (by simp) rest).andThen fun _ rest opened => ?_
  refine (parameterList_follows atEnd name.value rest).andThen fun names rest listed => ?_
  have lessNamed := Answer.of_eq_ok named
  have lessOpened := Answer.of_eq_ok opened
  have lessListed := Answer.of_eq_ok listed
  exact (shorter rest (by omega)).map _

theorem branch_follows (tokens : List Token) (block : BlockFollows stop tokens)
    (shorter : ∀ shorter : List Token, shorter.length < tokens.length →
      ConditionalFollows stop shorter) :
    Follows stop tokens (readBranch stop tokens) (run .branch) := by
  rw [run]
  refine current ?_
  cases tokens with
  | nil =>
      rw [List.head?_nil, Option.getD_none, atEnd]
      exact refuse _ _ _
  | cons next rest =>
      rw [List.head?_cons, Option.getD_some]
      split
      · next isIf =>
          rw [readBranch, if_pos isIf]
          exact shorter rest (by simp) next
      · next isOpen =>
          rw [readBranch, if_neg (by simp [isOpen]), if_pos isOpen]
          exact block.map _
      · next notIf notOpen =>
          rw [readBranch, if_neg notIf, if_neg notOpen]
          exact refuse _ _ _

theorem conditional_follows (tokens : List Token)
    (shorter : ∀ shorter : List Token, shorter.length < tokens.length →
      BlockFollows stop shorter ∧ ConditionalFollows stop shorter) :
    ConditionalFollows stop tokens := by
  intro first
  rw [run, readConditional_eq]
  refine advance ((formula_follows atEnd tokens).andThen fun condition rest read => ?_)
  have lessFormula := Answer.of_eq_ok read
  refine (shorter rest lessFormula).1.andThen fun body rest read => ?_
  have lessBlock := Answer.of_eq_ok read
  rw [readAlternative_eq]
  refine (accept atEnd (by simp) rest).andThen fun branches rest accepted => ?_
  have noMore := readAccept_length accepted
  cases branches with
  | false => exact stay _ _
  | true =>
      have branch := branch_follows atEnd rest (shorter rest (by omega)).1
        fun other less => (shorter other (by omega)).2
      exact branch.map _

theorem block_follows (tokens : List Token)
    (shorter : ∀ shorter : List Token, shorter.length < tokens.length → StatementsFollow stop shorter) :
    BlockFollows stop tokens := by
  have regrouped : run .block = (do
      let first ← Descent.expect (.keyword .openBlock)
      let read ← (do let nodes ← run (.statements []); let last ← Descent.advance; return (nodes, last))
      return Block.mk (first.span.cover read.2.span) read.1) := by
    rw [run]
    simp only [bind_assoc, pure_bind]
  unfold BlockFollows
  rw [regrouped, readBlock_eq]
  refine (expect atEnd (by simp) tokens).andThen fun first rest read => ?_
  have inner := (shorter rest (Answer.of_eq_ok read) []).map fun read =>
    Block.mk (first.span.cover read.2.span) read.1
  rw [Answer.andThen_assoc] at inner
  exact inner

theorem statementPass_follows (nodes : List Node) (tokens : List Token)
    (statement : StatementFollows stop tokens) :
    Follows stop tokens (readInner stop nodes tokens) (run (.statementPass nodes)) := by
  rw [run]
  refine current (of_plain fun plain => ?_)
  cases tokens with
  | nil =>
      rw [List.head?_nil, Option.getD_none, if_neg (by simp [atEnd]), if_pos atEnd]
      exact refuse _ _ _
  | cons token rest =>
      rw [List.head?_cons, Option.getD_some, readInner]
      split
      · exact stay _ _
      · rw [if_neg (plain token (.head rest))]
        exact statement.map _

omit atEnd in
theorem inner_follow (tokens : List Token)
    (pass : ∀ nodes, Follows stop tokens (readInner stop nodes tokens) (run (.statementPass nodes)))
    (shorter : ∀ shorter : List Token, shorter.length < tokens.length → StatementsFollow stop shorter) :
    StatementsFollow stop tokens := by
  intro nodes
  rw [run, bind_assoc, readStatements_pass]
  refine (pass nodes).andThen fun gathered rest read => ?_
  obtain ⟨nodes', more⟩ := gathered
  cases more with
  | true => exact shorter rest (readInner_shorter read) nodes'
  | false =>
      obtain ⟨closing, others, rfl⟩ := readInner_closed read
      show Follows stop (closing :: others) (.ok ((nodes', closing), others)) (pure nodes' >>= _)
      rw [pure_bind]
      exact advance (.stay _ _)

theorem statements_follow (tokens : List Token) :
    StatementFollows stop tokens ∧ DeclarationFollows stop tokens ∧ ConditionalFollows stop tokens ∧
      BlockFollows stop tokens ∧ StatementsFollow stop tokens :=
  statements_induction (statement_follows atEnd) (declaration_follows atEnd) (conditional_follows atEnd)
    (block_follows atEnd)
    (fun tokens statement =>
      inner_follow tokens fun nodes => statementPass_follows atEnd nodes tokens statement)
    tokens

end Statements

section Program

variable {stop : Token} (atEnd : stop.kind = .endOfFile)

include atEnd

theorem programPass_follows (nodes : List Node) (tokens : List Token) :
    Follows stop tokens (readOuter stop nodes tokens) (run (.programPass nodes)) := by
  rw [run]
  refine current (of_plain fun plain => ?_)
  cases tokens with
  | nil =>
      rw [List.head?_nil, Option.getD_none, if_pos atEnd]
      exact stay _ _
  | cons token rest =>
      rw [List.head?_cons, Option.getD_some, if_neg (plain token (.head rest))]
      exact (statements_follow atEnd (token :: rest)).1.map _

theorem programStatements_follow (nodes : List Node) (tokens : List Token) :
    Follows stop tokens
      ((readProgram stop tokens).andThen fun more rest => .ok (nodes ++ more, rest))
      (run (.programStatements nodes)) := by
  induction length : tokens.length using Nat.strongRecOn generalizing tokens nodes with
  | _ size inductionHypothesis =>
      subst length
      rw [run, readProgram_pass]
      refine (programPass_follows atEnd nodes tokens).andThen fun gathered rest read => ?_
      obtain ⟨nodes', more⟩ := gathered
      cases more with
      | false => exact stay _ _
      | true => exact inductionHypothesis _ (readOuter_shorter read) nodes' rest rfl

theorem program_follows (file : Text) (tokens : List Token) :
    Follows stop tokens
      ((readProgram stop tokens).andThen fun nodes rest => .ok (framed file stop tokens nodes, rest))
      (program file) := by
  refine current ?_
  have nodes := programStatements_follow atEnd [] tokens
  simp only [List.nil_append, Answer.andThen_same] at nodes
  refine nodes.andThen fun nodes rest read => current ?_
  rw [readProgram_leaves read]
  exact stay _ _

end Program

end Follows

end Descent

end Parlance
