import Parlance.Tree.Grammar

namespace Parlance.Grammar

/-!
The readers of the grammar without the bounds in their types. A plain reader
answers with a value and the tokens behind it, a rule with several parts is a
sequence of plain readers, and the equations below are all that later proofs
know about the recursion.
-/

abbrev Answer (α : Type) := Except SyntaxError (α × List Token)

namespace Answer

variable {α β : Type} {bound : Nat}

/-- Forgets the bound on what is left. -/
def of : Except SyntaxError (Reading bound α) → Answer α
  | .error error => .error error
  | .ok reading => .ok (reading.value, reading.rest)

/-- Goes on with the tokens behind a value. -/
def andThen (answer : Answer α) (next : α → List Token → Answer β) : Answer β :=
  match answer with
  | .error error => .error error
  | .ok (value, rest) => next value rest

theorem of_ok (reading : Reading bound α) :
    of (.ok reading) = .ok (reading.value, reading.rest) := rfl

@[simp] theorem andThen_error (error : SyntaxError) (next : α → List Token → Answer β) :
    andThen (.error error) next = .error error := rfl

@[simp] theorem andThen_ok (value : α) (rest : List Token) (next : α → List Token → Answer β) :
    andThen (.ok (value, rest)) next = next value rest := rfl

theorem andThen_eq_ok {answer : Answer α} {next : α → List Token → Answer β} {value : β}
    {rest : List Token} (accepted : answer.andThen next = .ok (value, rest)) :
    ∃ first middle, answer = .ok (first, middle) ∧ next first middle = .ok (value, rest) := by
  cases answer with
  | error error => contradiction
  | ok parts => exact ⟨parts.1, parts.2, rfl, accepted⟩

theorem andThen_eq_error {answer : Answer α} {next : α → List Token → Answer β}
    {error : SyntaxError} (refused : answer.andThen next = .error error) :
    answer = .error error ∨
      ∃ first middle, answer = .ok (first, middle) ∧ next first middle = .error error := by
  cases answer with
  | error reason => exact .inl (by simpa using refused)
  | ok parts => exact .inr ⟨parts.1, parts.2, rfl, refused⟩

theorem of_eq_ok {reply : Except SyntaxError (Reading bound α)} {value : α} {rest : List Token}
    (accepted : of reply = .ok (value, rest)) : rest.length < bound := by
  cases reply with
  | error error => contradiction
  | ok reading =>
      cases accepted
      exact reading.within

end Answer

def readToken (stop : Token) (kind : Kind) (tokens : List Token) : Answer Token :=
  .of (take stop kind tokens)

def readFormula (stop : Token) (level : Nat) (tokens : List Token) : Answer Node :=
  .of (formula stop level tokens)

def readChain (stop : Token) (level : Nat) (left : Node) (tokens : List Token) : Answer Node :=
  .of (chain stop level left tokens)

def readArguments (stop : Token) (tokens : List Token) : Answer (List Node × Token) :=
  .of (arguments stop tokens)

def readValues (stop : Token) (tokens : List Token) : Answer (List Node × Token) :=
  .of (argumentList stop tokens)

section Formulas

variable (stop : Token)

theorem readToken_nil (kind : Kind) : readToken stop kind [] = .error ⟨stop, .expected [kind]⟩ := rfl

theorem readToken_cons (kind : Kind) (token : Token) (rest : List Token) :
    readToken stop kind (token :: rest) =
      if token.kind = kind then .ok (token, rest) else .error ⟨token, .expected [kind]⟩ := by
  unfold readToken take
  by_cases same : token.kind = kind <;> simp [same, Answer.of]

theorem readFormula_succ (level : Nat) (tokens : List Token) :
    readFormula stop (level + 1) tokens =
      (readFormula stop level tokens).andThen (readChain stop level) := by
  unfold readFormula
  rw [formula]
  cases formula stop level tokens with
  | error error => rfl
  | ok reading =>
      simp only [Answer.of_ok, Answer.andThen_ok, readChain]
      cases chain stop level reading.value reading.rest <;> rfl

theorem readChain_nil (level : Nat) (left : Node) : readChain stop level left [] = .ok (left, []) := by
  unfold readChain
  rw [chain]
  rfl

theorem readChain_cons (level : Nat) (left : Node) (token : Token) (rest : List Token) :
    readChain stop level left (token :: rest) =
      match operator? level token.kind with
      | none => .ok (left, token :: rest)
      | some operator =>
        (readFormula stop level rest).andThen fun right =>
          readChain stop level (joined operator left right) := by
  unfold readChain readFormula
  rw [chain]
  cases operator? level token.kind with
  | none => rfl
  | some operator =>
      cases formula stop level rest with
      | error error => rfl
      | ok reading =>
          simp only [Answer.of_ok, Answer.andThen_ok]
          cases chain stop level (joined operator left reading.value) reading.rest <;> rfl

theorem readFormula_nil (level : Nat) :
    readFormula stop level [] = .error ⟨stop, .expected formulaStarts⟩ := by
  induction level with
  | zero =>
      unfold readFormula
      rw [formula, primary]
      rfl
  | succ level inductionHypothesis =>
      rw [readFormula_succ, inductionHypothesis]
      rfl

theorem readPrimary_group {token : Token} (opening : token.kind = .mark .openParen)
    (rest : List Token) :
    readFormula stop 0 (token :: rest) =
      (readFormula stop loosest rest).andThen fun inner rest =>
        (readToken stop (.mark .closeParen) rest).andThen fun _ rest => .ok (inner, rest) := by
  unfold readFormula
  rw [formula, primary.eq_def]
  simp only [opening]
  cases formula stop loosest rest with
  | error error => rfl
  | ok reading =>
      simp only [Answer.of_ok, Answer.andThen_ok, readToken]
      cases take stop (.mark .closeParen) reading.rest <;> rfl

theorem readPrimary_number {token : Token} (number : token.kind = .number) (rest : List Token) :
    readFormula stop 0 (token :: rest) =
      match Text.toInt64? token.value with
      | none => .error ⟨token, .integerRange⟩
      | some value => .ok (.number token.span value, rest) := by
  unfold readFormula
  rw [formula, primary.eq_def]
  simp only [number]
  cases Text.toInt64? token.value <;> rfl

theorem readPrimary_string {token : Token} (string : token.kind = .string) (rest : List Token) :
    readFormula stop 0 (token :: rest) = .ok (.string token.span token.value, rest) := by
  unfold readFormula
  rw [formula, primary.eq_def]
  simp only [string, Answer.of_ok]

theorem readPrimary_call {token next : Token} (name : token.kind = .name)
    (opening : next.kind = .mark .openParen) (rest : List Token) :
    readFormula stop 0 (token :: next :: rest) =
      (readArguments stop rest).andThen fun read rest =>
        .ok (.call (token.span.cover read.2.span) token.value read.1, rest) := by
  unfold readFormula
  rw [formula, primary.eq_def]
  simp only [name, opening, if_true, readArguments]
  cases arguments stop rest <;> rfl

theorem readPrimary_reference {token : Token} {rest : List Token} (name : token.kind = .name)
    (open? : ∀ next ∈ rest.head?, next.kind ≠ .mark .openParen) :
    readFormula stop 0 (token :: rest) = .ok (.reference token.span token.value, rest) := by
  unfold readFormula
  rw [formula, primary.eq_def]
  cases rest with
  | nil => simp only [name, Answer.of_ok]
  | cons next others =>
      have notOpen : next.kind ≠ .mark .openParen := open? next rfl
      simp only [name, notOpen, if_false, Answer.of_ok]

theorem readPrimary_refused {token : Token} (unexpected : token.kind ∉ formulaStarts)
    (rest : List Token) :
    readFormula stop 0 (token :: rest) = .error ⟨token, .expected formulaStarts⟩ := by
  simp only [formulaStarts, List.mem_cons, List.not_mem_nil, or_false, not_or] at unexpected
  obtain ⟨notNumber, notString, notName, notOpen⟩ := unexpected
  unfold readFormula
  rw [formula, primary.eq_def]
  dsimp only
  split
  · contradiction
  · contradiction
  · contradiction
  · contradiction
  · rfl

theorem readFormula_refused {token : Token} (unexpected : token.kind ∉ formulaStarts)
    (level : Nat) (rest : List Token) :
    readFormula stop level (token :: rest) = .error ⟨token, .expected formulaStarts⟩ := by
  induction level with
  | zero => exact readPrimary_refused stop unexpected rest
  | succ level inductionHypothesis =>
      rw [readFormula_succ, inductionHypothesis]
      rfl

theorem readArguments_nil :
    readArguments stop [] = .error ⟨stop, .expected formulaStarts⟩ := by
  unfold readArguments
  rw [arguments]
  rfl

theorem readArguments_cons (token : Token) (rest : List Token) :
    readArguments stop (token :: rest) =
      if token.kind = .mark .closeParen then .ok (([], token), rest)
      else readValues stop (token :: rest) := by
  unfold readArguments
  rw [arguments]
  split <;> rfl

/-- What follows an argument: another one or the end of the list. -/
def readValuesAfter (stop : Token) (value : Node) : List Token → Answer (List Node × Token)
  | [] => .error ⟨stop, .expected [.mark .comma, .mark .closeParen]⟩
  | token :: rest =>
    if token.kind = .mark .comma then
      (readValues stop rest).andThen fun read rest => .ok ((value :: read.1, read.2), rest)
    else if token.kind = .mark .closeParen then .ok (([value], token), rest)
    else .error ⟨token, .expected [.mark .comma, .mark .closeParen]⟩

theorem readValues_eq (tokens : List Token) :
    readValues stop tokens = (readFormula stop loosest tokens).andThen (readValuesAfter stop) := by
  unfold readValues readFormula
  rw [argumentList]
  cases formula stop loosest tokens with
  | error error => rfl
  | ok reading =>
      obtain ⟨value, rest, within⟩ := reading
      rw [Answer.of_ok, Answer.andThen_ok]
      cases rest with
      | nil => rfl
      | cons token rest =>
          simp only [readValuesAfter, readValues]
          split
          · cases argumentList stop rest <;> rfl
          · split <;> rfl

/-- A list of arguments that can be read is not closed at once. -/
theorem readArguments_of_readValues {tokens rest : List Token} {read : List Node × Token}
    (accepted : readValues stop tokens = .ok (read, rest)) :
    readArguments stop tokens = .ok (read, rest) := by
  cases tokens with
  | nil =>
      rw [readValues_eq, readFormula_nil] at accepted
      contradiction
  | cons token others =>
      rw [readArguments_cons, if_neg, accepted]
      intro closing
      have unexpected : token.kind ∉ formulaStarts := by simp [closing, formulaStarts]
      rw [readValues_eq, readFormula_refused stop unexpected] at accepted
      contradiction

end Formulas

/-- The names of a parameter list; those in `seen` are taken. -/
def readNames (stop : Token) (function : Text) (seen : List Text) (tokens : List Token) :
    Answer (List Text) :=
  .of (parameterList stop function seen tokens)

def readParameters (stop : Token) (function : Text) (tokens : List Token) : Answer (List Text) :=
  .of (parameters stop function tokens)

def readAssignment (stop : Token) (tokens : List Token) : Answer Node :=
  .of (assignment stop tokens)

def readStatement (stop : Token) (tokens : List Token) : Answer Node :=
  .of (statement stop tokens)

def readDeclaration (stop first : Token) (tokens : List Token) : Answer Node :=
  .of (declaration stop first tokens)

def readConditional (stop first : Token) (tokens : List Token) : Answer Node :=
  .of (conditional stop first tokens)

def readBlock (stop : Token) (tokens : List Token) : Answer Block :=
  .of (block stop tokens)

def readStatements (stop : Token) (tokens : List Token) : Answer (List Node × Token) :=
  .of (statements stop tokens)

/-- The top-level statements, which leave nothing. -/
def readProgram (stop : Token) (tokens : List Token) : Answer (List Node) :=
  (topLevel stop tokens).map fun nodes => (nodes, [])

/-- A parameter list has to be closed. -/
def readClosing (stop : Token) (names : List Text) : List Token → Answer (List Text)
  | [] => .error ⟨stop, .expected [.mark .comma, .mark .closeParen]⟩
  | closing :: rest =>
    if closing.kind = .mark .closeParen then .ok (names, rest)
    else .error ⟨closing, .expected [.mark .comma, .mark .closeParen]⟩

/-- A terminator that has to stand behind a statement. -/
def readTerminator (stop : Token) (node : Node) (tokens : List Token) : Answer Node :=
  (readToken stop (.keyword .terminator) tokens).andThen fun _ rest => .ok (node, rest)

/-- A terminator that may stand behind a statement. -/
def skipTerminator (node : Node) : List Token → Answer Node
  | [] => .ok (node, [])
  | token :: rest =>
    if token.kind = .keyword .terminator then .ok (node, rest) else .ok (node, token :: rest)

/-- The right side of an assignment, if there is one. -/
def readRightSide (stop : Token) (left : Node) : List Token → Answer Node
  | [] => .ok (left, [])
  | token :: rest =>
    if token.kind = .mark .assign then
      (readFormula stop loosest rest).andThen fun right rest => .ok (joined .assign left right, rest)
    else .ok (left, token :: rest)

/-- What stands behind the word that opens an alternative. -/
def readBranch (stop : Token) : List Token → Answer Node
  | [] => .error ⟨stop, .expected [.keyword .ifWord, .keyword .openBlock]⟩
  | next :: rest =>
    if next.kind = .keyword .ifWord then readConditional stop next rest
    else if next.kind = .keyword .openBlock then
      (readBlock stop (next :: rest)).andThen fun body rest => .ok (.block body, rest)
    else .error ⟨next, .expected [.keyword .ifWord, .keyword .openBlock]⟩

/-- The alternative of a conditional, if there is one. -/
def readAlternative (stop first : Token) (condition : Node) (body : Block) :
    List Token → Answer Node
  | [] => .ok (.conditional (first.span.cover body.span) condition (some body) none, [])
  | token :: rest =>
    if token.kind = .keyword .elseWord then
      (readBranch stop rest).andThen fun alternative rest =>
        .ok (.conditional (first.span.cover alternative.span) condition (some body)
          (some alternative), rest)
    else
      .ok (.conditional (first.span.cover body.span) condition (some body) none, token :: rest)

section Statements

variable (stop : Token)

theorem readNames_nil (function : Text) (seen : List Text) :
    readNames stop function seen [] = .error ⟨stop, .expected [.name]⟩ := rfl

theorem parameterList_single (function : Text) (seen : List Text) (token : Token) :
    parameterList stop function seen [token] =
      if token.kind = .name then
        if token.value ∈ seen then .error ⟨token, .duplicateParameter token.value function⟩
        else .ok ⟨[token.value], [], Nat.zero_lt_succ _⟩
      else .error ⟨token, .expected [.name]⟩ := rfl

theorem parameterList_more (function : Text) (seen : List Text) (token next : Token)
    (rest : List Token) :
    parameterList stop function seen (token :: next :: rest) =
      if token.kind = .name then
        if token.value ∈ seen then .error ⟨token, .duplicateParameter token.value function⟩
        else if next.kind = .mark .comma then
          match parameterList stop function (token.value :: seen) rest with
          | .error error => .error error
          | .ok ⟨names, rest', within⟩ =>
            .ok ⟨token.value :: names, rest', Nat.lt_succ_of_lt (Nat.lt_succ_of_lt within)⟩
        else .ok ⟨[token.value], next :: rest, Nat.lt_succ_self _⟩
      else .error ⟨token, .expected [.name]⟩ := rfl

theorem readNames_cons (function : Text) (seen : List Text) (token : Token) (rest : List Token) :
    readNames stop function seen (token :: rest) =
      if token.kind = .name then
        if token.value ∈ seen then .error ⟨token, .duplicateParameter token.value function⟩
        else
          match rest with
          | [] => .ok ([token.value], [])
          | next :: others =>
            if next.kind = .mark .comma then
              (readNames stop function (token.value :: seen) others).andThen fun names rest =>
                .ok (token.value :: names, rest)
            else .ok ([token.value], next :: others)
      else .error ⟨token, .expected [.name]⟩ := by
  cases rest with
  | nil =>
      rw [readNames, parameterList_single]
      split
      · split <;> rfl
      · rfl
  | cons next others =>
      rw [readNames, parameterList_more]
      split
      · split
        · rfl
        · dsimp only
          split
          · unfold readNames
            cases parameterList stop function (token.value :: seen) others <;> rfl
          · rfl
      · rfl

theorem readParameters_nil (function : Text) :
    readParameters stop function [] = .error ⟨stop, .expected [.name]⟩ := rfl

theorem readParameters_cons (function : Text) (token : Token) (rest : List Token) :
    readParameters stop function (token :: rest) =
      if token.kind = .mark .closeParen then .ok ([], rest)
      else (readNames stop function [] (token :: rest)).andThen (readClosing stop) := by
  unfold readParameters parameters
  by_cases closing : token.kind = .mark .closeParen
  · simp [closing, Answer.of]
  · simp only [closing, if_false, readNames]
    cases parameterList stop function [] (token :: rest) with
    | error error => rfl
    | ok reading =>
        obtain ⟨names, rest, within⟩ := reading
        cases rest with
        | nil => rfl
        | cons closing rest =>
            simp only [Answer.of_ok, Answer.andThen_ok, readClosing]
            split <;> rfl

theorem readAssignment_eq (tokens : List Token) :
    readAssignment stop tokens = (readFormula stop loosest tokens).andThen (readRightSide stop) := by
  unfold readAssignment assignment readFormula
  cases formula stop loosest tokens with
  | error error => rfl
  | ok reading =>
      obtain ⟨left, rest, within⟩ := reading
      cases rest with
      | nil => rfl
      | cons token rest =>
          simp only [Answer.of_ok, Answer.andThen_ok, readRightSide, readFormula]
          split
          · cases formula stop loosest rest <;> rfl
          · rfl

theorem of_terminated {tokens : List Token} (reply : Reply tokens Node) :
    Answer.of (terminated stop reply) = (Answer.of reply).andThen (readTerminator stop) := by
  unfold terminated
  cases reply with
  | error error => rfl
  | ok reading =>
      simp only [Answer.of_ok, Answer.andThen_ok, readTerminator, readToken]
      cases take stop (.keyword .terminator) reading.rest <;> rfl

theorem of_selfDelimited {tokens : List Token} (reply : Reply tokens Node) :
    Answer.of (selfDelimited reply) = (Answer.of reply).andThen skipTerminator := by
  unfold selfDelimited
  cases reply with
  | error error => rfl
  | ok reading =>
      obtain ⟨node, rest, within⟩ := reading
      cases rest with
      | nil => rfl
      | cons token rest =>
          simp only [Answer.of_ok, Answer.andThen_ok, skipTerminator]
          split <;> rfl

theorem readStatement_nil :
    readStatement stop [] = .error ⟨stop, .expected formulaStarts⟩ := by
  unfold readStatement
  rw [statement, of_terminated]
  change (readAssignment stop []).andThen _ = _
  rw [readAssignment_eq, readFormula_nil]
  rfl

theorem readStatement_declaration {token : Token} (word : token.kind = .keyword .function)
    (rest : List Token) :
    readStatement stop (token :: rest) = (readDeclaration stop token rest).andThen skipTerminator := by
  unfold readStatement
  rw [statement.eq_def]
  simp only [word, of_selfDelimited, readDeclaration]

theorem readStatement_giveBack {token : Token} (word : token.kind = .keyword .giveBack)
    (rest : List Token) :
    readStatement stop (token :: rest) =
      (readFormula stop loosest rest).andThen fun value =>
        skipTerminator (.giveBack (token.span.cover value.span) value) := by
  unfold readStatement
  rw [statement.eq_def]
  simp only [word, of_selfDelimited, readFormula]
  cases formula stop loosest rest <;> rfl

theorem readStatement_conditional {token : Token} (word : token.kind = .keyword .ifWord)
    (rest : List Token) :
    readStatement stop (token :: rest) = (readConditional stop token rest).andThen skipTerminator := by
  unfold readStatement
  rw [statement.eq_def]
  simp only [word, of_selfDelimited, readConditional]

theorem readStatement_print {token : Token} (word : token.kind = .keyword .print)
    (rest : List Token) :
    readStatement stop (token :: rest) =
      (readFormula stop loosest rest).andThen fun operand =>
        readTerminator stop (.unary (token.span.cover operand.span) .print operand) := by
  unfold readStatement
  rw [statement.eq_def]
  simp only [word, of_terminated, readFormula]
  cases formula stop loosest rest <;> rfl

/-- The words that open a statement of their own. -/
def statementWords : List Kind :=
  [.keyword .function, .keyword .giveBack, .keyword .ifWord, .keyword .print]

theorem readStatement_plain {token : Token} (plain : token.kind ∉ statementWords)
    (rest : List Token) :
    readStatement stop (token :: rest) =
      (readAssignment stop (token :: rest)).andThen (readTerminator stop) := by
  simp only [statementWords, List.mem_cons, List.not_mem_nil, or_false, not_or] at plain
  obtain ⟨notFunction, notGiveBack, notIf, notPrint⟩ := plain
  unfold readStatement
  rw [statement.eq_def]
  dsimp only
  split
  · contradiction
  · contradiction
  · contradiction
  · contradiction
  · rw [of_terminated]
    rfl

theorem readStatement_refused {token : Token} (noFormula : token.kind ∉ formulaStarts)
    (plain : token.kind ∉ statementWords) (rest : List Token) :
    readStatement stop (token :: rest) = .error ⟨token, .expected formulaStarts⟩ := by
  rw [readStatement_plain stop plain, readAssignment_eq, readFormula_refused stop noFormula]
  rfl

theorem readDeclaration_eq (first : Token) (tokens : List Token) :
    readDeclaration stop first tokens =
      (readToken stop .name tokens).andThen fun name rest =>
        (readToken stop (.mark .openParen) rest).andThen fun _ rest =>
          (readParameters stop name.value rest).andThen fun names rest =>
            (readBlock stop rest).andThen fun body rest =>
              .ok (.declaration (first.span.cover body.span) name.value names (some body), rest) := by
  unfold readDeclaration readToken readParameters readBlock
  rw [declaration]
  cases take stop .name tokens with
  | error error => rfl
  | ok name =>
      simp only [Answer.of_ok, Answer.andThen_ok]
      cases take stop (.mark .openParen) name.rest with
      | error error => rfl
      | ok opening =>
          simp only [Answer.of_ok, Answer.andThen_ok]
          cases parameters stop name.value.value opening.rest with
          | error error => rfl
          | ok names =>
              simp only [Answer.of_ok, Answer.andThen_ok]
              cases block stop names.rest <;> rfl

theorem readConditional_eq (first : Token) (tokens : List Token) :
    readConditional stop first tokens =
      (readFormula stop loosest tokens).andThen fun condition rest =>
        (readBlock stop rest).andThen (readAlternative stop first condition) := by
  unfold readConditional readFormula readBlock
  rw [conditional.eq_def]
  cases formula stop loosest tokens with
  | error error => rfl
  | ok condition =>
      simp only [Answer.of_ok, Answer.andThen_ok]
      cases block stop condition.rest with
      | error error => rfl
      | ok reading =>
          obtain ⟨body, rest, within⟩ := reading
          rw [Answer.of_ok, Answer.andThen_ok]
          cases rest with
          | nil => rfl
          | cons token rest =>
              by_cases isElse : token.kind = .keyword .elseWord
              · simp only [isElse, if_true, readAlternative]
                cases rest with
                | nil => rfl
                | cons next rest =>
                    simp only [readBranch]
                    split
                    · next isIf =>
                        simp only [isIf, if_true, readConditional]
                        cases conditional stop next rest <;> rfl
                    · next isOpen =>
                        simp only [isOpen, if_true, readBlock]
                        cases block stop (next :: rest) <;> rfl
                    · next notIf notOpen =>
                        rw [if_neg notIf, if_neg notOpen]
                        rfl
              · simp only [isElse, if_false, readAlternative]
                rfl

theorem readBlock_eq (tokens : List Token) :
    readBlock stop tokens =
      (readToken stop (.keyword .openBlock) tokens).andThen fun first rest =>
        (readStatements stop rest).andThen fun read rest =>
          .ok (.mk (first.span.cover read.2.span) read.1, rest) := by
  unfold readBlock readToken readStatements
  rw [block]
  cases take stop (.keyword .openBlock) tokens with
  | error error => rfl
  | ok first =>
      simp only [Answer.of_ok, Answer.andThen_ok]
      cases statements stop first.rest <;> rfl

theorem readStatements_nil :
    readStatements stop [] = .error ⟨stop, .expected [.keyword .closeBlock]⟩ := by
  unfold readStatements
  rw [statements]
  rfl

theorem readStatements_cons (token : Token) (rest : List Token) :
    readStatements stop (token :: rest) =
      if token.kind = .keyword .closeBlock then .ok (([], token), rest)
      else
        (readStatement stop (token :: rest)).andThen fun first rest =>
          (readStatements stop rest).andThen fun read rest => .ok ((first :: read.1, read.2), rest) := by
  unfold readStatements readStatement
  rw [statements]
  by_cases closing : token.kind = .keyword .closeBlock
  · simp [closing, Answer.of]
  · simp only [closing, if_false]
    cases statement stop (token :: rest) with
    | error error => rfl
    | ok first =>
        simp only [Answer.of_ok, Answer.andThen_ok]
        cases statements stop first.rest <;> rfl

theorem readProgram_nil : readProgram stop [] = .ok ([], []) := by
  unfold readProgram
  rw [topLevel]
  rfl

theorem readProgram_cons (token : Token) (rest : List Token) :
    readProgram stop (token :: rest) =
      (readStatement stop (token :: rest)).andThen fun first rest =>
        (readProgram stop rest).andThen fun others rest => .ok (first :: others, rest) := by
  unfold readProgram readStatement
  rw [topLevel]
  cases statement stop (token :: rest) with
  | error error => rfl
  | ok first =>
      simp only [Answer.of_ok, Answer.andThen_ok]
      cases topLevel stop first.rest <;> rfl

end Statements

/-- Everything that shows of the formulas at a place, given the same of all
shorter inputs: the recursion of the formula readers, once and for all. -/
theorem formulas_induction {formula chain : Nat → List Token → Prop}
    {values arguments : List Token → Prop}
    (ofPrimary : ∀ tokens : List Token,
      (∀ shorter : List Token, shorter.length < tokens.length →
        formula loosest shorter ∧ arguments shorter) → formula 0 tokens)
    (ofLevel : ∀ level (tokens : List Token), formula level tokens →
      (∀ shorter : List Token, shorter.length < tokens.length → chain level shorter) →
        formula (level + 1) tokens)
    (ofChain : ∀ level (tokens : List Token),
      (∀ shorter : List Token, shorter.length < tokens.length →
        formula level shorter ∧ chain level shorter) → chain level tokens)
    (ofValues : ∀ tokens : List Token, formula loosest tokens →
      (∀ shorter : List Token, shorter.length < tokens.length → values shorter) → values tokens)
    (ofArguments : ∀ tokens, values tokens → arguments tokens) (tokens : List Token) :
    (∀ level, formula level tokens) ∧ (∀ level, chain level tokens) ∧ values tokens ∧
      arguments tokens := by
  induction length : tokens.length using Nat.strongRecOn generalizing tokens with
  | _ size inductionHypothesis =>
      subst length
      have shorterFormula : ∀ level (shorter : List Token), shorter.length < tokens.length →
          formula level shorter :=
        fun level shorter less => (inductionHypothesis _ less shorter rfl).1 level
      have shorterChain : ∀ level (shorter : List Token), shorter.length < tokens.length →
          chain level shorter :=
        fun level shorter less => (inductionHypothesis _ less shorter rfl).2.1 level
      have formulas : ∀ level, formula level tokens := by
        intro level
        induction level with
        | zero =>
            exact ofPrimary tokens fun shorter less =>
              ⟨shorterFormula loosest shorter less, (inductionHypothesis _ less shorter rfl).2.2.2⟩
        | succ level formulaBelow => exact ofLevel level tokens formulaBelow (shorterChain level)
      have allValues : values tokens :=
        ofValues tokens (formulas loosest) fun shorter less =>
          (inductionHypothesis _ less shorter rfl).2.2.1
      exact ⟨formulas,
        fun level => ofChain level tokens fun shorter less =>
          ⟨shorterFormula level shorter less, shorterChain level shorter less⟩,
        allValues, ofArguments tokens allValues⟩

/-- The recursion of the statement readers. -/
theorem statements_induction {statement declaration conditional block statements : List Token → Prop}
    (ofStatement : ∀ tokens : List Token,
      (∀ shorter : List Token, shorter.length < tokens.length →
        declaration shorter ∧ conditional shorter) → statement tokens)
    (ofDeclaration : ∀ tokens : List Token,
      (∀ shorter : List Token, shorter.length < tokens.length → block shorter) → declaration tokens)
    (ofConditional : ∀ tokens : List Token,
      (∀ shorter : List Token, shorter.length < tokens.length →
        block shorter ∧ conditional shorter) → conditional tokens)
    (ofBlock : ∀ tokens : List Token,
      (∀ shorter : List Token, shorter.length < tokens.length → statements shorter) → block tokens)
    (ofStatements : ∀ tokens : List Token, statement tokens →
      (∀ shorter : List Token, shorter.length < tokens.length → statements shorter) →
        statements tokens) (tokens : List Token) :
    statement tokens ∧ declaration tokens ∧ conditional tokens ∧ block tokens ∧
      statements tokens := by
  induction length : tokens.length using Nat.strongRecOn generalizing tokens with
  | _ size inductionHypothesis =>
      subst length
      have shorterBlock : ∀ shorter : List Token, shorter.length < tokens.length → block shorter :=
        fun shorter less => (inductionHypothesis _ less shorter rfl).2.2.2.1
      have shorterStatements : ∀ shorter : List Token, shorter.length < tokens.length →
          statements shorter :=
        fun shorter less => (inductionHypothesis _ less shorter rfl).2.2.2.2
      have shorterConditional : ∀ shorter : List Token, shorter.length < tokens.length →
          conditional shorter :=
        fun shorter less => (inductionHypothesis _ less shorter rfl).2.2.1
      have whole : statement tokens := ofStatement tokens fun shorter less =>
        ⟨(inductionHypothesis _ less shorter rfl).2.1, shorterConditional shorter less⟩
      exact ⟨whole, ofDeclaration tokens shorterBlock,
        ofConditional tokens fun shorter less =>
          ⟨shorterBlock shorter less, shorterConditional shorter less⟩,
        ofBlock tokens shorterStatements, ofStatements tokens whole shorterStatements⟩

end Parlance.Grammar
