import Parlance.Proofs.Grammar.Completion

namespace Parlance.Grammar

/-!
How far readers look. The token behind what a reader takes decides where it
ends, and no token further on changes its answer. An objection is to the last
token that was looked at, or the tokens have run out. Both facts are shown
together, rule by rule.
-/

structure Local {α : Type} (read : Reader α) (tokens : List Token) : Prop where
  accepted : ∀ {stop value rest}, read stop tokens = .ok (value, rest) →
    ∃ taken, tokens = taken ++ rest ∧ ∀ stop' other, other.head? = rest.head? →
      read stop' (taken ++ other) = .ok (value, other)
  refused : ∀ {stop error}, read stop tokens = .error error → error.token = stop ∨
    ∃ front behind, tokens = front ++ error.token :: behind ∧
      ∀ stop' more, read stop' (front ++ error.token :: more) = .error error

namespace Local

section Answers

variable {α : Type} {read other : Reader α} {tokens : List Token}

theorem of_ok (value : α) (taken rest : List Token)
    (reads : ∀ stop other, other.head? = rest.head? → read stop (taken ++ other) = .ok (value, other)) :
    Local read (taken ++ rest) := by
  have answer : ∀ stop, read stop (taken ++ rest) = .ok (value, rest) := fun stop => reads stop rest rfl
  constructor
  · intro stop value' rest' accepted
    cases (answer stop).symm.trans accepted
    exact ⟨taken, rfl, reads⟩
  · intro stop error refused
    cases (answer stop).symm.trans refused

/-- Nothing is left, and nothing is missing. -/
theorem of_nil {value : α} (reads : ∀ stop, read stop [] = .ok (value, [])) : Local read [] := by
  refine of_ok value [] [] fun stop other sameHead => ?_
  rw [List.head?_eq_none_iff.mp sameHead]
  exact reads stop

/-- One token is taken, whatever follows it. -/
theorem of_token {value : α} {token : Token} (rest : List Token)
    (reads : ∀ stop more, read stop (token :: more) = .ok (value, more)) : Local read (token :: rest) :=
  of_ok value [token] rest fun stop other _ => reads stop other

theorem of_error {token : Token} {fault : SyntaxFault} (rest : List Token)
    (reads : ∀ stop more, read stop (token :: more) = .error ⟨token, fault⟩) :
    Local read (token :: rest) := by
  constructor
  · intro stop value rest' accepted
    cases (reads stop rest).symm.trans accepted
  · intro stop error refused
    cases (reads stop rest).symm.trans refused
    exact .inr ⟨[], rest, rfl, reads⟩

theorem of_end {fault : SyntaxFault} (reads : ∀ stop, read stop [] = .error ⟨stop, fault⟩) :
    Local read [] := by
  constructor
  · intro stop value rest accepted
    cases (reads stop).symm.trans accepted
  · intro stop error refused
    cases (reads stop).symm.trans refused
    exact .inl rfl

theorem value (value : α) : Local (fun _ rest => .ok (value, rest)) tokens :=
  of_ok value [] tokens fun _ _ _ => rfl

/-- A reader that takes some tokens off the front and goes on as another one. -/
theorem behind (looks : Local other tokens) (front : List Token)
    (same : ∀ stop more, read stop (front ++ more) = other stop more) :
    Local read (front ++ tokens) := by
  constructor
  · intro stop value rest accepted
    rw [same] at accepted
    obtain ⟨taken, rfl, reads⟩ := looks.accepted accepted
    refine ⟨front ++ taken, (List.append_assoc ..).symm, fun stop' other sameHead => ?_⟩
    rw [List.append_assoc, same]
    exact reads stop' other sameHead
  · intro stop error refused
    rw [same] at refused
    refine (looks.refused refused).imp_right ?_
    rintro ⟨before, rest, rfl, reads⟩
    refine ⟨front ++ before, rest, (List.append_assoc ..).symm, fun stop' more => ?_⟩
    rw [List.append_assoc, same]
    exact reads stop' more

/-- A reader whose first token decides what it goes on as. -/
theorem head {token : Token} {rest : List Token} (looks : Local other (token :: rest))
    (same : ∀ stop more, read stop (token :: more) = other stop (token :: more)) :
    Local read (token :: rest) := by
  have sameAt : ∀ stop tokens, tokens.head? = some token → read stop tokens = other stop tokens := by
    intro stop tokens starts
    obtain ⟨more, rfl⟩ := List.head?_eq_some_iff.mp starts
    exact same stop more
  constructor
  · intro stop value rest' accepted
    rw [same] at accepted
    obtain ⟨taken, whole, reads⟩ := looks.accepted accepted
    refine ⟨taken, whole, fun stop' other sameHead => ?_⟩
    have starts : (taken ++ other).head? = some token := by
      rw [List.head?_append, sameHead, ← List.head?_append, ← whole, List.head?_cons]
    rw [sameAt stop' _ starts]
    exact reads stop' other sameHead
  · intro stop error refused
    rw [same] at refused
    refine (looks.refused refused).imp_right ?_
    rintro ⟨front, behind, whole, reads⟩
    refine ⟨front, behind, whole, fun stop' more => ?_⟩
    have starts : (front ++ error.token :: more).head? = some token := by
      rw [List.head?_append, List.head?_cons, ← List.head?_cons (l := behind), ← List.head?_append,
        ← whole, List.head?_cons]
    rw [sameAt stop' _ starts]
    exact reads stop' more

end Answers

section Sequences

variable {α β : Type} {first : Reader α} {second : α → Reader β} {tokens : List Token}

theorem andThen (start : Local first tokens)
    (continues : ∀ {stop value rest}, first stop tokens = .ok (value, rest) →
      Local (second value) rest) :
    Local (fun stop behind => (first stop behind).andThen fun value rest => second value stop rest)
      tokens := by
  constructor
  · intro stop value rest accepted
    obtain ⟨part, middle, firstRead, secondRead⟩ := Answer.andThen_eq_ok accepted
    obtain ⟨taken, whole, reads⟩ := start.accepted firstRead
    obtain ⟨taken', rfl, reads'⟩ := (continues firstRead).accepted secondRead
    refine ⟨taken ++ taken', by rw [whole, List.append_assoc], fun stop' other sameHead => ?_⟩
    have sameMiddle : (taken' ++ other).head? = (taken' ++ rest).head? := by
      rw [List.head?_append, sameHead, List.head?_append]
    rw [List.append_assoc, reads stop' _ sameMiddle, Answer.andThen_ok]
    exact reads' stop' other sameHead
  · intro stop error refused
    rcases Answer.andThen_eq_error refused with firstFailed | ⟨part, middle, firstRead, secondFailed⟩
    · refine (start.refused firstFailed).imp_right ?_
      rintro ⟨front, behind, whole, reads⟩
      refine ⟨front, behind, whole, fun stop' more => ?_⟩
      rw [reads stop' more, Answer.andThen_error]
    · obtain ⟨taken, whole, reads⟩ := start.accepted firstRead
      refine ((continues firstRead).refused secondFailed).imp_right ?_
      rintro ⟨front, behind, rfl, reads'⟩
      refine ⟨taken ++ front, behind, by rw [whole, List.append_assoc], fun stop' more => ?_⟩
      have sameMiddle : (front ++ error.token :: more).head? =
          (front ++ error.token :: behind).head? := by
        rw [List.head?_append, List.head?_append, List.head?_cons, List.head?_cons]
      rw [List.append_assoc, reads stop' _ sameMiddle, Answer.andThen_ok]
      exact reads' stop' more

theorem map {make : α → β} (looks : Local first tokens) :
    Local (fun stop behind => (first stop behind).andThen fun value rest => .ok (make value, rest))
      tokens :=
  looks.andThen fun _ => value _

end Sequences

end Local

theorem readToken_local (kind : Kind) (tokens : List Token) :
    Local (fun stop => readToken stop kind) tokens := by
  cases tokens with
  | nil => exact .of_end (readToken_nil · kind)
  | cons token rest =>
      by_cases same : token.kind = kind
      · exact .of_token rest fun stop more => by rw [readToken_cons, if_pos same]
      · exact .of_error rest fun stop more => by rw [readToken_cons, if_neg same]

section Formulas

def FormulaLocal (level : Nat) (tokens : List Token) : Prop :=
  Local (fun stop => readFormula stop level) tokens

def ChainLocal (level : Nat) (tokens : List Token) : Prop :=
  ∀ left, Local (fun stop => readChain stop level left) tokens

theorem group_local {opening : Token} {rest : List Token}
    (isOpen : opening.kind = .mark .openParen) (inner : FormulaLocal loosest rest) :
    FormulaLocal 0 (opening :: rest) := by
  have behind : Local (fun stop behind =>
      (readFormula stop loosest behind).andThen fun inner rest =>
        (readToken stop (.mark .closeParen) rest).andThen fun _ rest => .ok (inner, rest)) rest :=
    Local.andThen inner fun _ => (readToken_local (.mark .closeParen) _).map
  exact behind.behind [opening] fun stop more => readPrimary_group stop isOpen more

theorem number_local {token : Token} (isNumber : token.kind = .number) (rest : List Token) :
    FormulaLocal 0 (token :: rest) := by
  cases read : Text.toInt64? token.value with
  | none =>
      exact .of_error rest fun stop more => by rw [readPrimary_number stop isNumber, read]
  | some value =>
      exact .of_token rest fun stop more => by rw [readPrimary_number stop isNumber, read]

/-- The token behind a name tells a reference from a call. -/
theorem reference_local {token : Token} {rest : List Token} (isName : token.kind = .name)
    (open? : ∀ next ∈ rest.head?, next.kind ≠ .mark .openParen) :
    FormulaLocal 0 (token :: rest) :=
  .of_ok _ [token] rest fun stop _ sameHead => readPrimary_reference stop isName (sameHead ▸ open?)

theorem call_local {token opening : Token} {rest : List Token} (isName : token.kind = .name)
    (isOpen : opening.kind = .mark .openParen) (arguments : Local readArguments rest) :
    FormulaLocal 0 (token :: opening :: rest) := by
  have behind : Local (fun stop behind =>
      (readArguments stop behind).andThen fun read rest =>
        .ok (Node.call (token.span.cover read.2.span) token.value read.1, rest)) rest :=
    arguments.map
  exact behind.behind [token, opening] fun stop more => readPrimary_call stop isName isOpen more

theorem primary_local (tokens : List Token)
    (shorter : ∀ shorter : List Token, shorter.length < tokens.length →
      FormulaLocal loosest shorter ∧ Local readArguments shorter) : FormulaLocal 0 tokens := by
  cases tokens with
  | nil => exact .of_end (readFormula_nil · 0)
  | cons token rest =>
      by_cases starts : token.kind ∈ formulaStarts
      · simp only [formulaStarts, List.mem_cons, List.not_mem_nil, or_false] at starts
        rcases starts with isNumber | isString | isName | isOpen
        · exact number_local isNumber rest
        · exact .of_token rest fun stop more => readPrimary_string stop isString more
        · cases rest with
          | nil => exact reference_local isName (by simp)
          | cons next others =>
              by_cases isOpen : next.kind = .mark .openParen
              · exact call_local isName isOpen
                  (shorter others (by simp only [List.length_cons]; omega)).2
              · exact reference_local isName (by simpa using isOpen)
        · exact group_local isOpen (shorter rest (by simp)).1
      · exact .of_error rest fun stop more => readPrimary_refused stop starts more

theorem level_local (level : Nat) (tokens : List Token) (below : FormulaLocal level tokens)
    (chain : ∀ shorter : List Token, shorter.length < tokens.length → ChainLocal level shorter) :
    FormulaLocal (level + 1) tokens := by
  have sequence : Local (fun stop behind =>
      (readFormula stop level behind).andThen fun left rest => readChain stop level left rest)
      tokens :=
    Local.andThen below fun read => chain _ (Answer.of_eq_ok read) _
  exact sequence.behind [] fun stop more => readFormula_succ stop level more

theorem chain_local (level : Nat) (tokens : List Token)
    (shorter : ∀ shorter : List Token, shorter.length < tokens.length →
      FormulaLocal level shorter ∧ ChainLocal level shorter) : ChainLocal level tokens := by
  intro left
  cases tokens with
  | nil => exact .of_nil (readChain_nil · level left)
  | cons token rest =>
      cases binds : operator? level token.kind with
      | none =>
          refine Local.head (.value left) fun stop more => ?_
          rw [readChain_cons, binds]
      | some operator =>
          have sequence : Local (fun stop behind =>
              (readFormula stop level behind).andThen fun right rest =>
                readChain stop level (joined operator left right) rest) rest := by
            refine Local.andThen (shorter rest (by simp)).1 fun {stop right others} read => ?_
            have fewer : others.length < rest.length := Answer.of_eq_ok read
            exact (shorter others (by simp only [List.length_cons]; omega)).2 _
          refine sequence.behind [token] fun stop more => ?_
          simp only [List.cons_append, List.nil_append, readChain_cons, binds]

theorem valuesAfter_local (value : Node) (tokens : List Token)
    (shorter : ∀ shorter : List Token, shorter.length < tokens.length → Local readValues shorter) :
    Local (fun stop => readValuesAfter stop value) tokens := by
  cases tokens with
  | nil => exact .of_end fun _ => rfl
  | cons token rest =>
      by_cases isComma : token.kind = .mark .comma
      · have behind : Local (fun stop behind =>
            (readValues stop behind).andThen fun read rest =>
              .ok ((value :: read.1, read.2), rest)) rest := (shorter rest (by simp)).map
        refine behind.behind [token] fun stop more => ?_
        simp only [List.cons_append, List.nil_append, readValuesAfter, if_pos isComma]
      · by_cases closes : token.kind = .mark .closeParen
        · exact .of_token rest fun stop more => by
            rw [readValuesAfter, if_neg isComma, if_pos closes]
        · exact .of_error rest fun stop more => by
            rw [readValuesAfter, if_neg isComma, if_neg closes]

theorem values_local (tokens : List Token) (formula : FormulaLocal loosest tokens)
    (shorter : ∀ shorter : List Token, shorter.length < tokens.length → Local readValues shorter) :
    Local readValues tokens := by
  have sequence : Local (fun stop behind =>
      (readFormula stop loosest behind).andThen fun value rest => readValuesAfter stop value rest)
      tokens := by
    refine Local.andThen formula fun {stop value rest} read => ?_
    have fewer : rest.length < tokens.length := Answer.of_eq_ok read
    exact valuesAfter_local value rest fun others less => shorter others (by omega)
  exact sequence.behind [] fun stop more => readValues_eq stop more

theorem arguments_local (tokens : List Token) (values : Local readValues tokens) :
    Local readArguments tokens := by
  cases tokens with
  | nil => exact .of_end readArguments_nil
  | cons token rest =>
      by_cases closes : token.kind = .mark .closeParen
      · exact .of_token rest fun stop more => by rw [readArguments_cons, if_pos closes]
      · exact values.head fun stop more => by rw [readArguments_cons, if_neg closes]

theorem formula_local (tokens : List Token) : FormulaLocal loosest tokens :=
  (formulas_induction primary_local level_local chain_local values_local arguments_local tokens).1
    loosest

end Formulas

section Parameters

theorem names_local (function : Text) (seen : List Text) (tokens : List Token) :
    Local (fun stop => readNames stop function seen) tokens := by
  match tokens with
  | [] => exact .of_end (readNames_nil · function seen)
  | token :: rest =>
      by_cases isName : token.kind = .name
      · by_cases taken : token.value ∈ seen
        · exact .of_error rest fun stop more => by
            rw [readNames_cons, if_pos isName, if_pos taken]
        · match rest with
          | [] =>
              exact .of_ok _ [token] [] fun stop other sameHead => by
                rw [List.head?_eq_none_iff.mp sameHead, List.append_nil, readNames_cons,
                  if_pos isName, if_neg taken]
          | next :: others =>
              by_cases comma : next.kind = .mark .comma
              · have behind : Local (fun stop behind =>
                    (readNames stop function (token.value :: seen) behind).andThen fun names rest =>
                      .ok (token.value :: names, rest)) others :=
                  (names_local function (token.value :: seen) others).map
                refine behind.behind [token, next] fun stop more => ?_
                simp only [List.cons_append, List.nil_append, readNames_cons, if_pos isName,
                  if_neg taken, if_pos comma]
              · refine .of_ok [token.value] [token] (next :: others) fun stop other sameHead => ?_
                obtain ⟨more, rfl⟩ := List.head?_eq_some_iff.mp sameHead
                simp only [List.cons_append, List.nil_append, readNames_cons, if_pos isName,
                  if_neg taken, if_neg comma]
      · exact .of_error rest fun stop more => by rw [readNames_cons, if_neg isName]
termination_by tokens.length

theorem closing_local (names : List Text) (tokens : List Token) :
    Local (fun stop => readClosing stop names) tokens := by
  cases tokens with
  | nil => exact .of_end fun _ => rfl
  | cons token rest =>
      by_cases closes : token.kind = .mark .closeParen
      · exact .of_token rest fun stop more => by rw [readClosing, if_pos closes]
      · exact .of_error rest fun stop more => by rw [readClosing, if_neg closes]

theorem parameters_local (function : Text) (tokens : List Token) :
    Local (fun stop => readParameters stop function) tokens := by
  cases tokens with
  | nil => exact .of_end (readParameters_nil · function)
  | cons token rest =>
      by_cases closes : token.kind = .mark .closeParen
      · exact .of_token rest fun stop more => by rw [readParameters_cons, if_pos closes]
      · have sequence : Local (fun stop behind =>
            (readNames stop function [] behind).andThen fun names rest =>
              readClosing stop names rest) (token :: rest) :=
          (names_local function [] (token :: rest)).andThen fun _ => closing_local _ _
        exact sequence.head fun stop more => by rw [readParameters_cons, if_neg closes]

end Parameters

section Statements

theorem terminator_local (node : Node) (tokens : List Token) :
    Local (fun stop => readTerminator stop node) tokens :=
  (readToken_local (.keyword .terminator) tokens).map

theorem skip_local (node : Node) (tokens : List Token) :
    Local (fun _ => skipTerminator node) tokens := by
  cases tokens with
  | nil => exact .of_nil fun _ => rfl
  | cons token rest =>
      by_cases word : token.kind = .keyword .terminator
      · exact .of_token rest fun stop more => by rw [skipTerminator, if_pos word]
      · exact Local.head (.value node) fun stop more => by rw [skipTerminator, if_neg word]

theorem rightSide_local (left : Node) (tokens : List Token) :
    Local (fun stop => readRightSide stop left) tokens := by
  cases tokens with
  | nil => exact .of_nil fun _ => rfl
  | cons token rest =>
      by_cases assigns : token.kind = .mark .assign
      · have behind : Local (fun stop behind =>
            (readFormula stop loosest behind).andThen fun right rest =>
              .ok (joined .assign left right, rest)) rest := Local.map (formula_local rest)
        refine behind.behind [token] fun stop more => ?_
        simp only [List.cons_append, List.nil_append, readRightSide, if_pos assigns]
      · exact Local.head (.value left) fun stop more => by rw [readRightSide, if_neg assigns]

theorem assignment_local (tokens : List Token) : Local readAssignment tokens := by
  have sequence : Local (fun stop behind =>
      (readFormula stop loosest behind).andThen fun left rest => readRightSide stop left rest)
      tokens :=
    Local.andThen (formula_local tokens) fun _ => rightSide_local _ _
  exact sequence.behind [] fun stop more => readAssignment_eq stop more

theorem block_local (tokens : List Token)
    (shorter : ∀ shorter : List Token, shorter.length < tokens.length → Local readStatements shorter) :
    Local readBlock tokens := by
  have sequence : Local (fun stop behind =>
      (readToken stop (.keyword .openBlock) behind).andThen fun first rest =>
        (readStatements stop rest).andThen fun read rest =>
          .ok (Block.mk (first.span.cover read.2.span) read.1, rest)) tokens :=
    (readToken_local (.keyword .openBlock) tokens).andThen fun read =>
      Local.map (shorter _ (Answer.of_eq_ok read))
  exact sequence.behind [] fun stop more => readBlock_eq stop more

theorem statements_local (tokens : List Token) (statement : Local readStatement tokens)
    (shorter : ∀ shorter : List Token, shorter.length < tokens.length → Local readStatements shorter) :
    Local readStatements tokens := by
  cases tokens with
  | nil => exact .of_end readStatements_nil
  | cons token rest =>
      by_cases closes : token.kind = .keyword .closeBlock
      · exact .of_token rest fun stop more => by rw [readStatements_cons, if_pos closes]
      · have sequence : Local (fun stop behind =>
            (readStatement stop behind).andThen fun first rest =>
              (readStatements stop rest).andThen fun read rest =>
                .ok ((first :: read.1, read.2), rest)) (token :: rest) :=
          statement.andThen fun read => Local.map (shorter _ (Answer.of_eq_ok read))
        exact sequence.head fun stop more => by rw [readStatements_cons, if_neg closes]

def DeclarationLocal (tokens : List Token) : Prop :=
  ∀ first, Local (fun stop => readDeclaration stop first) tokens

def ConditionalLocal (tokens : List Token) : Prop :=
  ∀ first, Local (fun stop => readConditional stop first) tokens

theorem header_local (first name : Token) (tokens : List Token)
    (shorter : ∀ shorter : List Token, shorter.length < tokens.length → Local readBlock shorter) :
    Local (fun stop => readHeader stop first name) tokens := by
  refine (readToken_local (.mark .openParen) tokens).andThen fun {stop opening rest} openingRead => ?_
  have fewer : rest.length < tokens.length := Answer.of_eq_ok openingRead
  refine (parameters_local name.value rest).andThen fun {stop names others} namesRead => ?_
  have fewer' : others.length < rest.length := Answer.of_eq_ok namesRead
  exact Local.map (shorter others (by omega))

theorem declaration_local (tokens : List Token)
    (shorter : ∀ shorter : List Token, shorter.length < tokens.length → Local readBlock shorter) :
    DeclarationLocal tokens := by
  intro first
  have sequence : Local (fun stop behind =>
      (readToken stop .name behind).andThen fun name rest => readHeader stop first name rest)
      tokens := by
    refine (readToken_local .name tokens).andThen fun {stop name rest} read => ?_
    have fewer : rest.length < tokens.length := Answer.of_eq_ok read
    exact header_local first name rest fun others less => shorter others (by omega)
  exact sequence.behind [] fun stop more => readDeclaration_eq stop first more

theorem branch_local (tokens : List Token)
    (within : ∀ shorter : List Token, shorter.length ≤ tokens.length →
      Local readBlock shorter ∧ ConditionalLocal shorter) : Local readBranch tokens := by
  cases tokens with
  | nil => exact .of_end fun _ => rfl
  | cons next rest =>
      by_cases isIf : next.kind = .keyword .ifWord
      · refine ((within rest (by simp)).2 next).behind [next] fun stop more => ?_
        simp only [List.cons_append, List.nil_append, readBranch, if_pos isIf]
      · by_cases isOpen : next.kind = .keyword .openBlock
        · have block : Local (fun stop behind =>
              (readBlock stop behind).andThen fun body rest => .ok (Node.block body, rest))
              (next :: rest) := Local.map (within (next :: rest) (by simp)).1
          exact block.head fun stop more => by rw [readBranch, if_neg isIf, if_pos isOpen]
        · exact .of_error rest fun stop more => by rw [readBranch, if_neg isIf, if_neg isOpen]

theorem alternative_local (first : Token) (condition : Node) (body : Block) (tokens : List Token)
    (shorter : ∀ shorter : List Token, shorter.length < tokens.length →
      Local readBlock shorter ∧ ConditionalLocal shorter) :
    Local (fun stop => readAlternative stop first condition body) tokens := by
  cases tokens with
  | nil => exact .of_nil fun _ => rfl
  | cons token rest =>
      by_cases isElse : token.kind = .keyword .elseWord
      · have branch : Local (fun stop behind =>
            (readBranch stop behind).andThen fun alternative rest =>
              .ok (Node.conditional (first.span.cover alternative.span) condition (some body)
                (some alternative), rest)) rest :=
          (branch_local rest fun others less =>
            shorter others (by simp only [List.length_cons]; omega)).map
        refine branch.behind [token] fun stop more => ?_
        simp only [List.cons_append, List.nil_append, readAlternative, if_pos isElse]
      · exact Local.head (.value _) fun stop more => by rw [readAlternative, if_neg isElse]

theorem conditional_local (tokens : List Token)
    (shorter : ∀ shorter : List Token, shorter.length < tokens.length →
      Local readBlock shorter ∧ ConditionalLocal shorter) : ConditionalLocal tokens := by
  intro first
  have sequence : Local (fun stop behind =>
      (readFormula stop loosest behind).andThen fun condition rest =>
        readConsequent stop first condition rest) tokens := by
    refine Local.andThen (formula_local tokens) fun {stop condition rest} conditionRead => ?_
    have fewer : rest.length < tokens.length := Answer.of_eq_ok conditionRead
    refine (shorter rest fewer).1.andThen fun {stop body others} bodyRead => ?_
    have fewer' : others.length < rest.length := Answer.of_eq_ok bodyRead
    exact alternative_local first condition body others fun another less =>
      shorter another (by omega)
  exact sequence.behind [] fun stop more => readConditional_eq stop first more

theorem statement_local (tokens : List Token)
    (shorter : ∀ shorter : List Token, shorter.length < tokens.length →
      DeclarationLocal shorter ∧ ConditionalLocal shorter) : Local readStatement tokens := by
  cases tokens with
  | nil => exact .of_end readStatement_nil
  | cons token rest =>
      by_cases isFunction : token.kind = .keyword .function
      · have declaration : Local (fun stop behind =>
            (readDeclaration stop token behind).andThen fun node rest => skipTerminator node rest)
            rest := ((shorter rest (by simp)).1 token).andThen fun _ => skip_local _ _
        exact declaration.behind [token] fun stop more =>
          readStatement_declaration stop isFunction more
      by_cases isGiveBack : token.kind = .keyword .giveBack
      · have giveBack : Local (fun stop behind =>
            (readFormula stop loosest behind).andThen fun value rest =>
              skipTerminator (.giveBack (token.span.cover value.span) value) rest) rest :=
          Local.andThen (formula_local rest) fun _ => skip_local _ _
        exact giveBack.behind [token] fun stop more => readStatement_giveBack stop isGiveBack more
      by_cases isIf : token.kind = .keyword .ifWord
      · have conditional : Local (fun stop behind =>
            (readConditional stop token behind).andThen fun node rest => skipTerminator node rest)
            rest := ((shorter rest (by simp)).2 token).andThen fun _ => skip_local _ _
        exact conditional.behind [token] fun stop more => readStatement_conditional stop isIf more
      by_cases isPrint : token.kind = .keyword .print
      · have print : Local (fun stop behind =>
            (readFormula stop loosest behind).andThen fun operand rest =>
              readTerminator stop (.unary (token.span.cover operand.span) .print operand) rest) rest :=
          Local.andThen (formula_local rest) fun _ => terminator_local _ _
        exact print.behind [token] fun stop more => readStatement_print stop isPrint more
      · have plain : token.kind ∉ statementWords := by
          simp [statementWords, isFunction, isGiveBack, isIf, isPrint]
        have sequence : Local (fun stop behind =>
            (readAssignment stop behind).andThen fun node rest => readTerminator stop node rest)
            (token :: rest) := (assignment_local _).andThen fun _ => terminator_local _ _
        exact sequence.head fun stop more => readStatement_plain stop plain more

theorem readStatement_local (tokens : List Token) : Local readStatement tokens :=
  (statements_induction statement_local declaration_local conditional_local block_local
    statements_local tokens).1

theorem readProgram_local (tokens : List Token) : Local readProgram tokens := by
  induction length : tokens.length using Nat.strongRecOn generalizing tokens with
  | _ size inductionHypothesis =>
      subst length
      cases tokens with
      | nil => exact .of_nil readProgram_nil
      | cons token rest =>
          have sequence : Local (fun stop behind =>
              (readStatement stop behind).andThen fun first rest =>
                (readProgram stop rest).andThen fun others rest => .ok (first :: others, rest))
              (token :: rest) :=
            (readStatement_local _).andThen fun read =>
              (inductionHypothesis _ (Answer.of_eq_ok read) _ rfl).map
          exact sequence.head fun stop more => readProgram_cons stop token more

end Statements

end Parlance.Grammar
