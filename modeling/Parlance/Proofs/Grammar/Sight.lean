import Parlance.Proofs.Incomplete

namespace Parlance

namespace Grammar

/-!
What parsing sees of a token list: the kinds and values in front of the first end of
file. Two lists that agree in them are read in step, so they are the same program but
for places, or both are refused at the same index for the same reason.
-/

/-- Tokens of two lists, at the same index, that agree in kind and value. -/
structure Twin where
  first : Token
  second : Token
  kind : second.kind = first.kind
  value : second.value = first.value

/-- What two readers answer to twins. Values agree in what `view` shows of them, and what is left
are twins again; objections are to a twin or to the end of both lists. -/
inductive Alike {α β : Type} (stop stop' : Token) (view : α → β) (twins : List Twin) :
    Answer α → Answer α → Prop
  | ok {value value' : α} {rest : List Twin} (same : view value' = view value)
      (behind : rest <:+ twins) :
      Alike stop stop' view twins (.ok (value, rest.map Twin.first))
        (.ok (value', rest.map Twin.second))
  | objection {twin : Twin} {fault : SyntaxFault} (member : twin ∈ twins) :
      Alike stop stop' view twins (.error ⟨twin.first, fault⟩) (.error ⟨twin.second, fault⟩)
  | ended {kinds : List Kind} :
      Alike stop stop' view twins (.error ⟨stop, .expected kinds⟩) (.error ⟨stop', .expected kinds⟩)

namespace Alike

section Answers

variable {α β γ δ : Type} {stop stop' : Token} {view : α → γ} {view' : β → δ}
  {twins rest : List Twin} {answer answer' : Answer α}

/-- Nothing is taken. -/
theorem stay (twins : List Twin) {value value' : α} (same : view value' = view value) :
    Alike stop stop' view twins (.ok (value, twins.map Twin.first))
      (.ok (value', twins.map Twin.second)) :=
  .ok same (List.suffix_refl twins)

/-- What holds of the tokens further on holds from here. -/
theorem further (alike : Alike stop stop' view rest answer answer') (behind : rest <:+ twins) :
    Alike stop stop' view twins answer answer' := by
  cases alike with
  | ok same inside => exact .ok same (inside.trans behind)
  | objection member => exact .objection (behind.subset member)
  | ended => exact .ended

theorem skip {twin : Twin} (alike : Alike stop stop' view rest answer answer') :
    Alike stop stop' view (twin :: rest) answer answer' :=
  alike.further (List.suffix_cons twin rest)

theorem andThen {next next' : α → List Token → Answer β}
    (alike : Alike stop stop' view twins answer answer')
    (continues : ∀ value value' rest, view value' = view value →
      answer = .ok (value, rest.map Twin.first) →
      Alike stop stop' view' rest (next value (rest.map Twin.first))
        (next' value' (rest.map Twin.second))) :
    Alike stop stop' view' twins (answer.andThen next) (answer'.andThen next') := by
  cases alike with
  | ok same behind => exact (continues _ _ _ same rfl).further behind
  | objection member => exact .objection member
  | ended => exact .ended

theorem map {make make' : α → β} (alike : Alike stop stop' view twins answer answer')
    (same : ∀ value value', view value' = view value → view' (make' value') = view' (make value)) :
    Alike stop stop' view' twins (answer.andThen fun value rest => .ok (make value, rest))
      (answer'.andThen fun value rest => .ok (make' value, rest)) :=
  alike.andThen fun value value' _ alike _ => stay _ (same value value' alike)

end Answers

variable {stop stop' : Token}

theorem token (kind : Kind) (twins : List Twin) :
    Alike stop stop' Token.value twins (readToken stop kind (twins.map Twin.first))
      (readToken stop' kind (twins.map Twin.second)) := by
  cases twins with
  | nil => exact .ended
  | cons twin rest =>
      simp only [List.map_cons, readToken_cons, twin.kind]
      split
      · exact .ok twin.value (List.suffix_cons twin rest)
      · exact .objection (.head rest)

section Formulas

variable (stop stop')

def FormulaAlike (level : Nat) (tokens : List Token) : Prop :=
  ∀ twins, tokens = twins.map Twin.first →
    Alike stop stop' Node.erased twins (readFormula stop level tokens)
      (readFormula stop' level (twins.map Twin.second))

def ChainAlike (level : Nat) (tokens : List Token) : Prop :=
  ∀ twins left left', tokens = twins.map Twin.first → Node.erased left' = Node.erased left →
    Alike stop stop' Node.erased twins (readChain stop level left tokens)
      (readChain stop' level left' (twins.map Twin.second))

/-- The values of a list that is closed by a token. -/
def nodesOf (read : List Node × Token) : List Node :=
  Node.erasedAll read.1

def ValuesAlike (tokens : List Token) : Prop :=
  ∀ twins, tokens = twins.map Twin.first →
    Alike stop stop' nodesOf twins (readValues stop tokens) (readValues stop' (twins.map Twin.second))

def ArgumentsAlike (tokens : List Token) : Prop :=
  ∀ twins, tokens = twins.map Twin.first →
    Alike stop stop' nodesOf twins (readArguments stop tokens)
      (readArguments stop' (twins.map Twin.second))

variable {stop stop'}

theorem name_alike {twin : Twin} {rest : List Twin} (isName : twin.first.kind = .name)
    (shorter : ∀ shorter : List Token, shorter.length < ((twin :: rest).map Twin.first).length →
      ArgumentsAlike stop stop' shorter) :
    Alike stop stop' Node.erased (twin :: rest)
      (readFormula stop 0 (twin.first :: rest.map Twin.first))
      (readFormula stop' 0 (twin.second :: rest.map Twin.second)) := by
  have isName' : twin.second.kind = .name := twin.kind.trans isName
  have reference (open? : ∀ next ∈ rest.head?, next.first.kind ≠ .mark .openParen) :
      Alike stop stop' Node.erased (twin :: rest)
        (readFormula stop 0 (twin.first :: rest.map Twin.first))
        (readFormula stop' 0 (twin.second :: rest.map Twin.second)) := by
    rw [readPrimary_reference stop isName (by simpa using open?),
      readPrimary_reference stop' isName' (by simpa [Twin.kind] using open?)]
    exact skip (stay _ (by simp only [Node.erased, twin.value]))
  cases rest with
  | nil => exact reference (by simp)
  | cons next others =>
      by_cases opening : next.first.kind = .mark .openParen
      · rw [List.map_cons, readPrimary_call stop isName opening, List.map_cons,
          readPrimary_call stop' isName' (next.kind.trans opening)]
        have arguments := shorter (others.map Twin.first)
          (by simp only [List.map_cons, List.length_cons]; omega) others rfl
        refine skip (skip (arguments.map fun read read' same => ?_))
        have same : Node.erasedAll read'.1 = Node.erasedAll read.1 := same
        simp only [Node.erased, twin.value, same]
      · exact reference (by simpa using opening)

theorem primary_alike (tokens : List Token)
    (shorter : ∀ shorter : List Token, shorter.length < tokens.length →
      FormulaAlike stop stop' loosest shorter ∧ ArgumentsAlike stop stop' shorter) :
    FormulaAlike stop stop' 0 tokens := by
  rintro twins rfl
  cases twins with
  | nil =>
      rw [List.map_nil, readFormula_nil, List.map_nil, readFormula_nil]
      exact .ended
  | cons twin rest =>
      rw [List.map_cons, List.map_cons]
      by_cases starts : twin.first.kind ∈ formulaStarts
      · simp only [formulaStarts, List.mem_cons, List.not_mem_nil, or_false] at starts
        rcases starts with isNumber | isString | isName | isOpen
        · rw [readPrimary_number stop isNumber, readPrimary_number stop' (twin.kind.trans isNumber),
            twin.value]
          cases Text.toInt64? twin.first.value with
          | none => exact .objection (.head rest)
          | some value => exact skip (stay _ rfl)
        · rw [readPrimary_string stop isString, readPrimary_string stop' (twin.kind.trans isString)]
          exact skip (stay _ (by simp only [Node.erased, twin.value]))
        · exact name_alike isName fun other less => (shorter other less).2
        · rw [readPrimary_group stop isOpen, readPrimary_group stop' (twin.kind.trans isOpen)]
          refine skip (((shorter (rest.map Twin.first) (by simp)).1 rest rfl).andThen ?_)
          exact fun inner inner' behind same _ => (token _ behind).map fun _ _ _ => same
      · have refused' : twin.second.kind ∉ formulaStarts := twin.kind ▸ starts
        rw [readPrimary_refused stop starts, readPrimary_refused stop' refused']
        exact .objection (.head rest)

theorem level_alike (level : Nat) (tokens : List Token) (below : FormulaAlike stop stop' level tokens)
    (chain : ∀ shorter : List Token, shorter.length < tokens.length →
      ChainAlike stop stop' level shorter) : FormulaAlike stop stop' (level + 1) tokens := by
  rintro twins rfl
  rw [readFormula_succ, readFormula_succ]
  refine (below twins rfl).andThen fun left left' rest same read => ?_
  exact chain _ (Answer.of_eq_ok read) rest left left' rfl same

theorem chain_alike (level : Nat) (tokens : List Token)
    (shorter : ∀ shorter : List Token, shorter.length < tokens.length →
      FormulaAlike stop stop' level shorter ∧ ChainAlike stop stop' level shorter) :
    ChainAlike stop stop' level tokens := by
  rintro twins left left' rfl same
  cases twins with
  | nil =>
      rw [List.map_nil, readChain_nil, List.map_nil, readChain_nil]
      exact stay [] same
  | cons twin rest =>
      rw [List.map_cons, readChain_cons, List.map_cons, readChain_cons, twin.kind]
      cases operator? level twin.first.kind with
      | none => exact stay (twin :: rest) same
      | some operator =>
          have formula := (shorter (rest.map Twin.first) (by simp)).1 rest rfl
          refine skip (formula.andThen fun right right' behind same' read => ?_)
          have fewer : (behind.map Twin.first).length < (rest.map Twin.first).length :=
            Answer.of_eq_ok read
          refine (shorter _ (by rw [List.map_cons, List.length_cons]; omega)).2 behind _ _ rfl ?_
          simp only [joined, Node.erased, same, same']

theorem values_alike (tokens : List Token) (formula : FormulaAlike stop stop' loosest tokens)
    (shorter : ∀ shorter : List Token, shorter.length < tokens.length →
      ValuesAlike stop stop' shorter) : ValuesAlike stop stop' tokens := by
  rintro twins rfl
  rw [readValues_eq, readValues_eq]
  refine (formula twins rfl).andThen fun value value' rest same read => ?_
  have fewer : (rest.map Twin.first).length < (twins.map Twin.first).length := Answer.of_eq_ok read
  cases rest with
  | nil => exact .ended
  | cons twin rest =>
      simp only [List.map_cons, readValuesAfter, twin.kind]
      split
      · have values := shorter (rest.map Twin.first)
          (by rw [List.map_cons, List.length_cons] at fewer; omega) rest rfl
        refine skip (values.map fun read read' same' => ?_)
        have same' : Node.erasedAll read'.1 = Node.erasedAll read.1 := same'
        simp only [nodesOf, Node.erasedAll, same, same']
      · split
        · exact skip (stay _ (by simp only [nodesOf, Node.erasedAll, same]))
        · exact .objection (.head rest)

theorem arguments_alike (tokens : List Token) (values : ValuesAlike stop stop' tokens) :
    ArgumentsAlike stop stop' tokens := by
  rintro twins rfl
  cases twins with
  | nil =>
      rw [List.map_nil, readArguments_nil, List.map_nil, readArguments_nil]
      exact .ended
  | cons twin rest =>
      have inside := values (twin :: rest) rfl
      simp only [List.map_cons, readArguments_cons, twin.kind] at inside ⊢
      split
      · exact skip (stay _ rfl)
      · exact inside

theorem formula (twins : List Twin) :
    Alike stop stop' Node.erased twins (readFormula stop loosest (twins.map Twin.first))
      (readFormula stop' loosest (twins.map Twin.second)) :=
  (formulas_induction primary_alike level_alike chain_alike values_alike arguments_alike _).1
    loosest twins rfl

end Formulas

section Parameters

theorem names (function : Text) (seen : List Text) (twins : List Twin) :
    Alike stop stop' id twins (readNames stop function seen (twins.map Twin.first))
      (readNames stop' function seen (twins.map Twin.second)) := by
  match twins with
  | [] => exact .ended
  | twin :: rest =>
      rw [List.map_cons, List.map_cons, readNames_cons, readNames_cons, twin.kind, twin.value]
      split
      · split
        · exact .objection (.head rest)
        · match rest with
          | [] => exact skip (stay [] rfl)
          | next :: others =>
              simp only [List.map_cons, next.kind]
              split
              · refine skip (skip ((names function _ others).map fun more more' same => ?_))
                exact congrArg (twin.first.value :: ·) same
              · exact skip (stay (next :: others) rfl)
      · exact .objection (.head rest)
termination_by twins.length

theorem parameters (function : Text) (twins : List Twin) :
    Alike stop stop' id twins (readParameters stop function (twins.map Twin.first))
      (readParameters stop' function (twins.map Twin.second)) := by
  cases twins with
  | nil => exact .ended
  | cons twin rest =>
      have list : Alike stop stop' id (twin :: rest) _ _ := names function [] (twin :: rest)
      simp only [List.map_cons, readParameters_cons, twin.kind] at list ⊢
      split
      · exact skip (stay _ rfl)
      · refine list.andThen fun names names' behind same _ => ?_
        cases behind with
        | nil => exact .ended
        | cons closing behind =>
            simp only [List.map_cons, readClosing, closing.kind]
            split
            · exact skip (stay _ same)
            · exact .objection (.head behind)

end Parameters

section Statements

theorem terminator {node node' : Node} (same : node'.erased = node.erased) (twins : List Twin) :
    Alike stop stop' Node.erased twins (readTerminator stop node (twins.map Twin.first))
      (readTerminator stop' node' (twins.map Twin.second)) :=
  (token _ twins).map fun _ _ _ => same

theorem optionalTerminator {node node' : Node} (same : node'.erased = node.erased)
    (twins : List Twin) :
    Alike stop stop' Node.erased twins (skipTerminator node (twins.map Twin.first))
      (skipTerminator node' (twins.map Twin.second)) := by
  cases twins with
  | nil => exact stay [] same
  | cons twin rest =>
      simp only [List.map_cons, skipTerminator, twin.kind]
      split
      · exact skip (stay _ same)
      · exact stay (twin :: rest) same

theorem assignment (twins : List Twin) :
    Alike stop stop' Node.erased twins (readAssignment stop (twins.map Twin.first))
      (readAssignment stop' (twins.map Twin.second)) := by
  rw [readAssignment_eq, readAssignment_eq]
  refine (formula twins).andThen fun left left' rest same _ => ?_
  cases rest with
  | nil => exact stay [] same
  | cons twin rest =>
      simp only [List.map_cons, readRightSide, twin.kind]
      split
      · refine skip ((formula rest).map fun right right' same' => ?_)
        simp only [joined, Node.erased, same, same']
      · exact stay (twin :: rest) same

variable (stop stop')

def StatementAlike (tokens : List Token) : Prop :=
  ∀ twins, tokens = twins.map Twin.first →
    Alike stop stop' Node.erased twins (readStatement stop tokens)
      (readStatement stop' (twins.map Twin.second))

def DeclarationAlike (tokens : List Token) : Prop :=
  ∀ twins first first', tokens = twins.map Twin.first →
    Alike stop stop' Node.erased twins (readDeclaration stop first tokens)
      (readDeclaration stop' first' (twins.map Twin.second))

def ConditionalAlike (tokens : List Token) : Prop :=
  ∀ twins first first', tokens = twins.map Twin.first →
    Alike stop stop' Node.erased twins (readConditional stop first tokens)
      (readConditional stop' first' (twins.map Twin.second))

def BlockAlike (tokens : List Token) : Prop :=
  ∀ twins, tokens = twins.map Twin.first →
    Alike stop stop' Block.erased twins (readBlock stop tokens) (readBlock stop' (twins.map Twin.second))

def StatementsAlike (tokens : List Token) : Prop :=
  ∀ twins, tokens = twins.map Twin.first →
    Alike stop stop' nodesOf twins (readStatements stop tokens)
      (readStatements stop' (twins.map Twin.second))

variable {stop stop'}

theorem statement_alike (tokens : List Token)
    (shorter : ∀ shorter : List Token, shorter.length < tokens.length →
      DeclarationAlike stop stop' shorter ∧ ConditionalAlike stop stop' shorter) :
    StatementAlike stop stop' tokens := by
  rintro twins rfl
  cases twins with
  | nil =>
      rw [List.map_nil, readStatement_nil, List.map_nil, readStatement_nil]
      exact .ended
  | cons twin rest =>
      rw [List.map_cons, List.map_cons]
      have inside := shorter (rest.map Twin.first) (by simp)
      by_cases word : twin.first.kind ∈ statementWords
      · simp only [statementWords, List.mem_cons, List.not_mem_nil, or_false] at word
        rcases word with word | word | word | word
        · rw [readStatement_declaration stop word,
            readStatement_declaration stop' (twin.kind.trans word)]
          refine skip ((inside.1 rest _ _ rfl).andThen fun _ _ behind same _ => ?_)
          exact optionalTerminator same behind
        · rw [readStatement_giveBack stop word, readStatement_giveBack stop' (twin.kind.trans word)]
          refine skip ((formula rest).andThen fun _ _ behind same _ => ?_)
          exact optionalTerminator (by simp only [Node.erased, same]) behind
        · rw [readStatement_conditional stop word,
            readStatement_conditional stop' (twin.kind.trans word)]
          refine skip ((inside.2 rest _ _ rfl).andThen fun _ _ behind same _ => ?_)
          exact optionalTerminator same behind
        · rw [readStatement_print stop word, readStatement_print stop' (twin.kind.trans word)]
          refine skip ((formula rest).andThen fun _ _ behind same _ => ?_)
          exact terminator (by simp only [Node.erased, same]) behind
      · rw [readStatement_plain stop word, readStatement_plain stop' (twin.kind ▸ word)]
        exact (assignment (twin :: rest)).andThen fun _ _ behind same _ => terminator same behind

theorem declaration_alike (tokens : List Token)
    (shorter : ∀ shorter : List Token, shorter.length < tokens.length →
      BlockAlike stop stop' shorter) : DeclarationAlike stop stop' tokens := by
  rintro twins first first' rfl
  rw [readDeclaration_eq, readDeclaration_eq]
  refine (token .name twins).andThen fun name name' afterName sameName nameRead => ?_
  refine (token _ afterName).andThen fun _ _ afterOpening _ openingRead => ?_
  rw [sameName]
  refine (parameters name.value afterOpening).andThen fun names names' rest sameNames namesRead => ?_
  have fewer := Answer.of_eq_ok nameRead
  have fewer' := Answer.of_eq_ok openingRead
  have fewer'' := Answer.of_eq_ok namesRead
  refine (shorter (rest.map Twin.first) (by omega) rest rfl).map fun body body' same => ?_
  have sameNames : names' = names := sameNames
  simp only [Node.erased, Block.erasedOption, sameNames, same]

theorem conditional_alike (tokens : List Token)
    (shorter : ∀ shorter : List Token, shorter.length < tokens.length →
      BlockAlike stop stop' shorter ∧ ConditionalAlike stop stop' shorter) :
    ConditionalAlike stop stop' tokens := by
  rintro twins first first' rfl
  rw [readConditional_eq, readConditional_eq]
  refine (formula twins).andThen fun condition condition' afterCondition sameCondition read => ?_
  have fewer := Answer.of_eq_ok read
  refine ((shorter _ fewer).1 afterCondition rfl).andThen fun body body' rest sameBody read => ?_
  have fewer' := Answer.of_eq_ok read
  have alone : ∀ span span', Node.erased (.conditional span' condition' (some body') none) =
      Node.erased (.conditional span condition (some body) none) := by
    simp only [Node.erased, Block.erasedOption, sameCondition, sameBody, implies_true]
  cases rest with
  | nil => exact stay [] (alone _ _)
  | cons twin rest =>
      simp only [List.map_cons, List.length_cons] at fewer'
      simp only [List.map_cons, readAlternative, twin.kind]
      split
      · have branch : Alike stop stop' Node.erased rest (readBranch stop (rest.map Twin.first))
            (readBranch stop' (rest.map Twin.second)) := by
          cases rest with
          | nil => exact .ended
          | cons next others =>
              simp only [List.map_cons, List.length_cons] at fewer'
              have block := (shorter ((next :: others).map Twin.first)
                (by rw [List.map_cons, List.length_cons]; omega)).1 (next :: others) rfl
              simp only [List.map_cons, readBranch, next.kind] at block ⊢
              split
              · exact skip ((shorter (others.map Twin.first) (by omega)).2 others _ _ rfl)
              · split
                · exact block.map fun body body' same => by simp only [Node.erased, same]
                · exact .objection (.head others)
        refine skip (branch.map fun alternative alternative' same => ?_)
        simp only [Node.erased, Block.erasedOption, Node.erasedOption, sameCondition, sameBody, same]
      · exact stay (twin :: rest) (alone _ _)

theorem block_alike (tokens : List Token)
    (shorter : ∀ shorter : List Token, shorter.length < tokens.length →
      StatementsAlike stop stop' shorter) : BlockAlike stop stop' tokens := by
  rintro twins rfl
  rw [readBlock_eq, readBlock_eq]
  refine (token _ twins).andThen fun _ _ rest _ openingRead => ?_
  refine (shorter _ (Answer.of_eq_ok openingRead) rest rfl).map fun read read' same => ?_
  have same : Node.erasedAll read'.1 = Node.erasedAll read.1 := same
  simp only [Block.erased, same]

theorem statements_alike (tokens : List Token) (statement : StatementAlike stop stop' tokens)
    (shorter : ∀ shorter : List Token, shorter.length < tokens.length →
      StatementsAlike stop stop' shorter) : StatementsAlike stop stop' tokens := by
  rintro twins rfl
  cases twins with
  | nil =>
      rw [List.map_nil, readStatements_nil, List.map_nil, readStatements_nil]
      exact .ended
  | cons twin rest =>
      have first := statement (twin :: rest) rfl
      simp only [List.map_cons, readStatements_cons, twin.kind] at first ⊢
      split
      · exact skip (stay _ rfl)
      · refine first.andThen fun node node' behind same read => ?_
        have others := shorter _ (Answer.of_eq_ok read) behind rfl
        refine others.map fun read read' same' => ?_
        have same' : Node.erasedAll read'.1 = Node.erasedAll read.1 := same'
        simp only [nodesOf, Node.erasedAll, same, same']

/-- The statements of a whole program. -/
theorem program (twins : List Twin) :
    Alike stop stop' Node.erasedAll twins (readProgram stop (twins.map Twin.first))
      (readProgram stop' (twins.map Twin.second)) := by
  induction length : twins.length using Nat.strongRecOn generalizing twins with
  | _ size inductionHypothesis =>
      subst length
      cases twins with
      | nil =>
          rw [List.map_nil, readProgram_nil, List.map_nil, readProgram_nil]
          exact stay [] rfl
      | cons twin rest =>
          have first : Alike stop stop' Node.erased (twin :: rest) _ _ :=
            (statements_induction statement_alike declaration_alike conditional_alike block_alike
              statements_alike _).1 (twin :: rest) rfl
          simp only [List.map_cons, readProgram_cons] at first ⊢
          refine first.andThen fun node node' behind same read => ?_
          have fewer : (behind.map Twin.first).length < (twin.first :: rest.map Twin.first).length :=
            Answer.of_eq_ok read
          have others := inductionHypothesis behind.length (by simpa using fewer) behind rfl
          exact others.map fun nodes nodes' same' => by simp only [Node.erasedAll, same, same']

end Statements

end Alike

end Grammar

open Grammar Scanner

/-- The kinds and values in front of the first end of file. -/
def sight (tokens : List Token) : List (Kind × Text) :=
  (frontTokens tokens).map fun token => (token.kind, token.value)

/-- The tokens that parsing goes over: those in front of the first end of file, and an end of file
behind them. -/
def passage (file : Text) (tokens : List Token) : List Token :=
  frontTokens tokens ++ [endToken file tokens]

/-- What parsing says, places apart: the program, or the index of the token that is objected to with
what is said about it. -/
inductive Verdict where
  | program (program : Program)
  | fault (index : Nat) (message : Text) (expected : List Kind) (found : Text)

inductive Judged (file : Text) (tokens : List Token) : Verdict → Prop
  | program {program : Program} (accepted : parseTokens file tokens = .ok program) :
      Judged file tokens (.program program.erased)
  | fault {error : SyntaxError} {index : Nat} (refused : parseTokens file tokens = .error error)
      (stands : (passage file tokens)[index]? = some error.token) :
      Judged file tokens (.fault index error.message error.expected error.found)

/-- Tokens of these kinds and values. No two of them are equal, as their offsets count them. -/
def numbered (seen : List (Kind × Text)) : List Token :=
  seen.mapIdx fun index part => ⟨part.1, part.2, index, .blank⟩

/-- What is said of all token lists that look the same. -/
def verdict (seen : List (Kind × Text)) : Verdict :=
  match readProgram ⟨.endOfFile, [], seen.length, .blank⟩ (numbered seen) with
  | .ok (nodes, _) => .program ⟨.blank, some (.mk .blank (Node.erasedAll nodes))⟩
  | .error error => .fault error.token.offset error.message error.expected error.found

theorem exists_twins {first second : List Token}
    (same : first.map (fun token => (token.kind, token.value)) =
      second.map fun token => (token.kind, token.value)) :
    ∃ twins : List Twin, twins.map Twin.first = first ∧ twins.map Twin.second = second := by
  induction first generalizing second with
  | nil => exact ⟨[], rfl, (List.map_eq_nil_iff.mp same.symm).symm⟩
  | cons token rest inductionHypothesis =>
      obtain ⟨other, others, rfl, agree, same⟩ := List.map_eq_cons_iff.mp same.symm
      obtain ⟨twins, rfl, rfl⟩ := inductionHypothesis same.symm
      exact ⟨⟨token, other, congrArg Prod.fst agree, congrArg Prod.snd agree⟩ :: twins, rfl, rfl⟩

theorem map_numbered (seen : List (Kind × Text)) :
    (numbered seen).map (fun token => (token.kind, token.value)) = seen := by
  refine List.ext_getElem (by simp [numbered]) fun index _ _ => ?_
  simp [numbered]

theorem offset_of_numbered {seen : List (Kind × Text)} {index : Nat} {token : Token}
    (stands : (numbered seen)[index]? = some token) : token.offset = index := by
  rw [numbered, List.getElem?_mapIdx, Option.map_eq_some_iff] at stands
  obtain ⟨part, _, rfl⟩ := stands
  rfl

theorem Grammar.Twin.found_eq (twin : Twin) : twin.second.found = twin.first.found := by
  simp only [Token.found, twin.kind, twin.value]

/-- What is said about a token does not show its place. -/
theorem SyntaxError.message_twin (twin : Twin) (fault : SyntaxFault) :
    (⟨twin.second, fault⟩ : SyntaxError).message = (⟨twin.first, fault⟩ : SyntaxError).message := by
  simp only [message, found, twin.found_eq, twin.value]

theorem judged_verdict (file : Text) (tokens : List Token) :
    Judged file tokens (verdict (sight tokens)) := by
  obtain ⟨twins, firsts, seconds⟩ := exists_twins (map_numbered (sight tokens))
  have alike : Alike ⟨.endOfFile, [], (sight tokens).length, .blank⟩ (endToken file tokens)
      Node.erasedAll twins _ _ := .program twins
  rw [firsts, seconds] at alike
  unfold verdict
  generalize readProgram _ (numbered (sight tokens)) = answer at alike ⊢
  generalize read : readProgram (endToken file tokens) (frontTokens tokens) = answer' at alike
  cases alike with
  | ok same _ =>
      obtain ⟨span, accepted⟩ := parseTokens_of_readProgram read
      have judged := Judged.program accepted
      rw [Program.erased, Block.erasedOption, Block.erased, same] at judged
      exact judged
  | @objection twin fault member =>
      obtain ⟨index, stands⟩ := List.mem_iff_getElem?.mp member
      have first : (numbered (sight tokens))[index]? = some twin.first := by
        rw [← firsts, List.getElem?_map, stands, Option.map_some]
      have second : (frontTokens tokens)[index]? = some twin.second := by
        rw [← seconds, List.getElem?_map, stands, Option.map_some]
      have inside : index < (frontTokens tokens).length := (List.getElem?_eq_some_iff.mp second).1
      have passed : (passage file tokens)[index]? = some twin.second := by
        rw [passage, List.getElem?_append_left inside, second]
      have judged := Judged.fault (parseTokens_error_iff.mpr read) passed
      rw [SyntaxError.message_twin, SyntaxError.found, twin.found_eq,
        ← offset_of_numbered first] at judged
      exact judged
  | @ended kinds =>
      have last : (passage file tokens)[(sight tokens).length]? = some (endToken file tokens) := by
        simp [passage, sight]
      have judged := Judged.fault (parseTokens_error_iff.mpr read) last
      have found : (endToken file tokens).found = Kind.endOfFile.text :=
        if_pos (kind_endToken file tokens)
      simp only [SyntaxError.message, SyntaxError.found, found] at judged
      exact judged

/-- Parsing sees nothing but the kinds and values in front of the first end of file: they decide
whether the tokens are a program, which one it is but for places, and otherwise which token is
objected to and what is said. So the end of file behind scanned tokens can be left out, and what is
put behind it is not seen. -/
theorem parseTokens_sight :
    (∃ verdict : List (Kind × Text) → Verdict,
      ∀ file tokens, Judged file tokens (verdict (sight tokens))) ∧
    ∀ file source tokens, tokenize file source = .ok tokens →
      sight tokens.dropLast = sight tokens ∧ ∀ more, sight (tokens ++ more) = sight tokens := by
  refine ⟨⟨verdict, judged_verdict⟩, fun file source tokens scanned => ?_⟩
  obtain ⟨front, last, rfl, isEnd, inside⟩ := tokenize_ended scanned
  have upTo (more : List Token) : frontTokens (front ++ more) = front ++ frontTokens more :=
    List.takeWhile_append_of_pos (by simpa using inside)
  have whole : frontTokens front = front := by simpa [frontTokens] using upTo []
  have behind (more : List Token) : frontTokens (front ++ [last] ++ more) = front := by
    rw [List.append_assoc, upTo]
    simp [frontTokens, isEnd]
  have ended : frontTokens (front ++ [last]) = front := by simpa using behind []
  simp only [sight, List.dropLast_concat, whole, ended, behind, implies_true, and_self]

/-- The same is said of scanned tokens, of those without their end of file, and of a list with
other places, another file and tokens behind an end of file. -/
theorem parseTokens_sight_scanned :
    let scanned : List Token := [⟨.number, utf8 "1", 0, ⟨[], ⟨1, 1⟩, ⟨1, 2⟩⟩⟩,
      ⟨.endOfFile, [], 1, ⟨[], ⟨1, 2⟩, ⟨1, 2⟩⟩⟩]
    let moved : List Token := [⟨.number, utf8 "1", 7, .blank⟩, ⟨.endOfFile, utf8 "?", 3, .blank⟩,
      ⟨.foreign 99, [], 0, .blank⟩]
    tokenize [] (utf8 "1") = .ok scanned ∧
      ∃ verdict, Judged [] scanned verdict ∧ Judged [] scanned.dropLast verdict ∧
        Judged (utf8 "f") moved verdict := by
  intro scanned moved
  have accepted : tokenize [] (utf8 "1") = .ok scanned :=
    (scan_lexeme [] .origin 0 (show (splitGap false (utf8 "1")).2 = 49 :: [] by decide)
      (show split 49 [] = .ok ⟨.number, utf8 "1", []⟩ by rfl)).trans
      (congrArg (Except.map _) (scan_gap [] _ _ (by decide)))
  obtain ⟨⟨verdict, judged⟩, unseen⟩ := parseTokens_sight
  have dropped : sight scanned.dropLast = sight scanned := (unseen _ _ _ accepted).1
  have alike : sight moved = sight scanned := by decide
  exact ⟨accepted, verdict (sight scanned), judged _ _, dropped ▸ judged _ _, alike ▸ judged _ _⟩

end Parlance
