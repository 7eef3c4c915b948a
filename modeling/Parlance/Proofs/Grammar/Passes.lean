import Parlance.Proofs.Grammar.Recognition

namespace Parlance.Grammar

/-!
The readers of the grammar, pass by pass. A list is read as a loop would read it: one
element, and whether there are more. What a reader of lists answers is what its passes
answer one after the other.
-/

theorem Answer.andThen_same {α : Type} (answer : Answer α) :
    (answer.andThen fun value rest => .ok (value, rest)) = answer := by
  cases answer <;> rfl

theorem Answer.andThen_assoc {α β γ : Type} (answer : Answer α) (next : α → List Token → Answer β)
    (last : β → List Token → Answer γ) :
    (answer.andThen next).andThen last =
      answer.andThen fun value rest => (next value rest).andThen last := by
  cases answer <;> rfl

/-- Whether a token of the given kind comes first. If so, it is taken. -/
def readAccept (kind : Kind) : List Token → Answer Bool
  | [] => .ok (false, [])
  | token :: rest => if token.kind = kind then .ok (true, rest) else .ok (false, token :: rest)

/-- What closes a list in parentheses. -/
def readClose (stop : Token) : List Token → Answer Token
  | [] => .error ⟨stop, .expected [.mark .comma, .mark .closeParen]⟩
  | closing :: rest =>
    if closing.kind = .mark .closeParen then .ok (closing, rest)
    else .error ⟨closing, .expected [.mark .comma, .mark .closeParen]⟩

/-! The readers of the passes. -/

def readOperator (stop : Token) (level : Nat) (left : Node) : List Token → Answer (Node × Bool)
  | [] => .ok ((left, false), [])
  | token :: rest =>
    match operator? level token.kind with
    | none => .ok ((left, false), token :: rest)
    | some operator =>
      (readFormula stop level rest).andThen fun right rest => .ok ((joined operator left right, true), rest)

def readArgument (stop : Token) (values : List Node) (tokens : List Token) :
    Answer (List Node × Bool) :=
  (readFormula stop loosest tokens).andThen fun value rest =>
    (readAccept (.mark .comma) rest).andThen fun more rest => .ok ((values ++ [value], more), rest)

def readParameter (stop : Token) (function : Text) (names : List Text) (tokens : List Token) :
    Answer (List Text × Bool) :=
  (readToken stop .name tokens).andThen fun name rest =>
    if names.contains name.value then .error ⟨name, .duplicateParameter name.value function⟩
    else (readAccept (.mark .comma) rest).andThen fun more rest =>
      .ok ((names ++ [name.value], more), rest)

def readInner (stop : Token) (nodes : List Node) : List Token → Answer (List Node × Bool)
  | [] => .error ⟨stop, .expected [.keyword .closeBlock]⟩
  | token :: rest =>
    if token.kind = .keyword .closeBlock then .ok ((nodes, false), token :: rest)
    else (readStatement stop (token :: rest)).andThen fun node rest => .ok ((nodes ++ [node], true), rest)

def readOuter (stop : Token) (nodes : List Node) : List Token → Answer (List Node × Bool)
  | [] => .ok ((nodes, false), [])
  | token :: rest =>
    (readStatement stop (token :: rest)).andThen fun node rest => .ok ((nodes ++ [node], true), rest)

theorem readAccept_length {kind : Kind} {tokens rest : List Token} {more : Bool}
    (read : readAccept kind tokens = .ok (more, rest)) : rest.length ≤ tokens.length := by
  cases tokens with
  | nil => cases read; exact Nat.le_refl _
  | cons token others =>
      rw [readAccept] at read
      split at read <;> cases read <;> simp

theorem readOperator_shorter {stop : Token} {level : Nat} {left whole : Node}
    {tokens rest : List Token} (read : readOperator stop level left tokens = .ok ((whole, true), rest)) :
    rest.length < tokens.length := by
  cases tokens with
  | nil => cases read
  | cons token others =>
      rw [readOperator] at read
      split at read
      · cases read
      · obtain ⟨right, behind, formula, same⟩ := Answer.andThen_eq_ok read
        cases same
        have fewer := Answer.of_eq_ok formula
        rw [List.length_cons]
        omega

theorem readArgument_shorter {stop : Token} {values gathered : List Node} {more : Bool}
    {tokens rest : List Token} (read : readArgument stop values tokens = .ok ((gathered, more), rest)) :
    rest.length < tokens.length := by
  obtain ⟨value, behind, formula, read⟩ := Answer.andThen_eq_ok read
  obtain ⟨more, rest, accepted, same⟩ := Answer.andThen_eq_ok read
  cases same
  have fewer := Answer.of_eq_ok formula
  have noMore := readAccept_length accepted
  omega

theorem readParameter_shorter {stop : Token} {function : Text} {names gathered : List Text}
    {more : Bool} {tokens rest : List Token}
    (read : readParameter stop function names tokens = .ok ((gathered, more), rest)) :
    rest.length < tokens.length := by
  obtain ⟨name, behind, token, read⟩ := Answer.andThen_eq_ok read
  split at read
  · cases read
  · obtain ⟨more, rest, accepted, same⟩ := Answer.andThen_eq_ok read
    cases same
    have fewer := Answer.of_eq_ok token
    have noMore := readAccept_length accepted
    omega

/-- The order in which names were seen does not matter. -/
theorem readNames_congr (stop : Token) (function : Text) {seen seen' : List Text}
    (same : ∀ name, name ∈ seen ↔ name ∈ seen') (tokens : List Token) :
    readNames stop function seen tokens = readNames stop function seen' tokens := by
  match tokens with
  | [] => rfl
  | [token] => simp only [readNames_cons, same]
  | token :: next :: rest =>
      have more : readNames stop function (token.value :: seen) rest =
          readNames stop function (token.value :: seen') rest :=
        readNames_congr stop function (by simp [same]) rest
      simp only [readNames_cons, same, more]
termination_by tokens.length

theorem readNames_pass (stop : Token) (function : Text) (names : List Text) (tokens : List Token) :
    ((readNames stop function names tokens).andThen fun more rest => .ok (names ++ more, rest)) =
      (readParameter stop function names tokens).andThen fun gathered rest =>
        if gathered.2 then
          (readNames stop function gathered.1 rest).andThen fun more rest =>
            .ok (gathered.1 ++ more, rest)
        else .ok (gathered.1, rest) := by
  cases tokens with
  | nil => rfl
  | cons token rest =>
      rw [readNames_cons, readParameter, readToken_cons]
      by_cases isName : token.kind = .name
      · by_cases taken : token.value ∈ names
        · simp [isName, taken]
        · simp only [isName, List.contains_eq_mem, decide_eq_true_eq, taken, if_true, if_false,
            Answer.andThen_ok]
          cases rest with
          | nil => rfl
          | cons next others =>
              rw [readAccept]
              by_cases isComma : next.kind = .mark .comma
              · simp only [isComma, if_true, Answer.andThen_ok]
                have reordered : readNames stop function (token.value :: names) others =
                    readNames stop function (names ++ [token.value]) others :=
                  readNames_congr stop function (by grind) others
                rw [reordered]
                cases readNames stop function (names ++ [token.value]) others with
                | error error => rfl
                | ok read => simp [Answer.andThen]
              · simp [isComma]
      · simp [isName]

theorem readChain_pass (stop : Token) (level : Nat) (left : Node) (tokens : List Token) :
    readChain stop level left tokens =
      (readOperator stop level left tokens).andThen fun gathered rest =>
        if gathered.2 then readChain stop level gathered.1 rest else .ok (gathered.1, rest) := by
  cases tokens with
  | nil => rw [readChain_nil]; rfl
  | cons token rest =>
      rw [readChain_cons, readOperator]
      cases operator? level token.kind with
      | none => rfl
      | some operator => cases readFormula stop level rest <;> rfl

theorem readValues_pass (stop : Token) (values : List Node) (tokens : List Token) :
    ((readValues stop tokens).andThen fun read rest => .ok ((values ++ read.1, read.2), rest)) =
      (readArgument stop values tokens).andThen fun gathered rest =>
        if gathered.2 then
          (readValues stop rest).andThen fun read rest => .ok ((gathered.1 ++ read.1, read.2), rest)
        else (readClose stop rest).andThen fun closing rest => .ok ((gathered.1, closing), rest) := by
  rw [readValues_eq, readArgument]
  cases readFormula stop loosest tokens with
  | error error => rfl
  | ok read =>
      obtain ⟨value, rest⟩ := read
      cases rest with
      | nil => rfl
      | cons token rest =>
          simp only [Answer.andThen_ok, readValuesAfter, readAccept]
          by_cases isComma : token.kind = .mark .comma
          · simp only [isComma, if_true, Answer.andThen_ok]
            cases readValues stop rest with
            | error error => rfl
            | ok read => simp [Answer.andThen]
          · by_cases closing : token.kind = .mark .closeParen <;> simp [isComma, closing, readClose]

theorem readInner_shorter {stop : Token} {nodes gathered : List Node} {tokens rest : List Token}
    (read : readInner stop nodes tokens = .ok ((gathered, true), rest)) :
    rest.length < tokens.length := by
  cases tokens with
  | nil => cases read
  | cons token others =>
      rw [readInner] at read
      split at read
      · cases read
      · obtain ⟨node, behind, statement, same⟩ := Answer.andThen_eq_ok read
        cases same
        exact Answer.of_eq_ok statement

theorem readInner_closed {stop : Token} {nodes gathered : List Node} {tokens rest : List Token}
    (read : readInner stop nodes tokens = .ok ((gathered, false), rest)) :
    ∃ closing others, rest = closing :: others := by
  cases tokens with
  | nil => cases read
  | cons token others =>
      rw [readInner] at read
      split at read
      · cases read
        exact ⟨token, others, rfl⟩
      · obtain ⟨node, behind, statement, same⟩ := Answer.andThen_eq_ok read
        cases same

theorem readOuter_shorter {stop : Token} {nodes gathered : List Node} {tokens rest : List Token}
    (read : readOuter stop nodes tokens = .ok ((gathered, true), rest)) :
    rest.length < tokens.length := by
  cases tokens with
  | nil => cases read
  | cons token others =>
      obtain ⟨node, behind, statement, same⟩ := Answer.andThen_eq_ok read
      cases same
      exact Answer.of_eq_ok statement

theorem readStatements_pass (stop : Token) (nodes : List Node) (tokens : List Token) :
    ((readStatements stop tokens).andThen fun read rest => .ok ((nodes ++ read.1, read.2), rest)) =
      (readInner stop nodes tokens).andThen fun gathered rest =>
        if gathered.2 then
          (readStatements stop rest).andThen fun read rest =>
            .ok ((gathered.1 ++ read.1, read.2), rest)
        else .ok ((gathered.1, rest.headD stop), rest.tail) := by
  cases tokens with
  | nil => rw [readStatements_nil]; rfl
  | cons token rest =>
      rw [readStatements_cons, readInner]
      by_cases closing : token.kind = .keyword .closeBlock
      · simp [closing]
      · simp only [closing, if_false]
        cases readStatement stop (token :: rest) with
        | error error => rfl
        | ok first =>
            simp only [Answer.andThen, if_true]
            cases readStatements stop first.2 <;> simp

theorem readProgram_pass (stop : Token) (nodes : List Node) (tokens : List Token) :
    ((readProgram stop tokens).andThen fun more rest => .ok (nodes ++ more, rest)) =
      (readOuter stop nodes tokens).andThen fun gathered rest =>
        if gathered.2 then
          (readProgram stop rest).andThen fun more rest => .ok (gathered.1 ++ more, rest)
        else .ok (gathered.1, rest) := by
  cases tokens with
  | nil => simp [readProgram_nil, readOuter]
  | cons token rest =>
      rw [readProgram_cons, readOuter]
      cases readStatement stop (token :: rest) with
      | error error => rfl
      | ok first =>
          simp only [Answer.andThen, if_true]
          cases readProgram stop first.2 <;> simp

theorem readProgram_leaves {stop : Token} {tokens rest : List Token} {nodes : List Node}
    (read : readProgram stop tokens = .ok (nodes, rest)) : rest = [] := by
  unfold readProgram at read
  cases answered : topLevel stop tokens with
  | error error =>
      rw [answered] at read
      contradiction
  | ok nodes =>
      rw [answered] at read
      cases read
      rfl

/-- The program of these statements, from the first token up to the end of file. -/
def framed (file : Text) (stop : Token) (tokens : List Token) (nodes : List Node) : Program :=
  let first := (tokens.head?.getD stop).span
  let first := if first.file = [] then { first with file := file } else first
  let span := first.cover stop.span
  ⟨span, some (.mk span nodes)⟩

theorem parseTokens_eq (file : Text) (tokens : List Token) :
    parseTokens file tokens =
      (readProgram (endToken file tokens) (frontTokens tokens)).map fun read =>
        framed file (endToken file tokens) (frontTokens tokens) read.1 := by
  unfold parseTokens readProgram
  dsimp only
  rw [← frontTokens]
  cases topLevel (endToken file tokens) (frontTokens tokens) <;> rfl

theorem skipTerminator_eq (node : Node) (tokens : List Token) :
    skipTerminator node tokens =
      (readAccept (.keyword .terminator) tokens).andThen fun _ rest => .ok (node, rest) := by
  cases tokens with
  | nil => rfl
  | cons token rest =>
      rw [skipTerminator, readAccept]
      split <;> rfl

theorem readRightSide_eq (stop : Token) (left : Node) (tokens : List Token) :
    readRightSide stop left tokens =
      (readAccept (.mark .assign) tokens).andThen fun assigns rest =>
        if assigns then
          (readFormula stop loosest rest).andThen fun right rest => .ok (joined .assign left right, rest)
        else .ok (left, rest) := by
  cases tokens with
  | nil => rfl
  | cons token rest =>
      rw [readRightSide, readAccept]
      split <;> rfl

theorem readAlternative_eq (stop first : Token) (condition : Node) (body : Block)
    (tokens : List Token) :
    readAlternative stop first condition body tokens =
      (readAccept (.keyword .elseWord) tokens).andThen fun branches rest =>
        if branches then
          (readBranch stop rest).andThen fun alternative rest =>
            .ok (.conditional (first.span.cover alternative.span) condition (some body)
              (some alternative), rest)
        else .ok (.conditional (first.span.cover body.span) condition (some body) none, rest) := by
  cases tokens with
  | nil => rfl
  | cons token rest =>
      rw [readAlternative, readAccept]
      split <;> rfl

end Parlance.Grammar
