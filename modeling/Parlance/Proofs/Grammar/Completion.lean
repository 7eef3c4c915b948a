import Parlance.Proofs.Grammar.Extension

namespace Parlance.Grammar

open Parlance.Derivation

/-!
Statements and more tokens. An unfinished statement is completed by closing
what is open: parameter lists, blocks and alternatives by their closing words,
and a missing parameter by a name that is not taken yet.
-/

section Parameters

def longest : List Text → Nat
  | [] => 0
  | name :: names => max name.length (longest names)

theorem length_le_longest {name : Text} {names : List Text} (member : name ∈ names) :
    name.length ≤ longest names := by
  induction names with
  | nil => contradiction
  | cons other names inductionHypothesis =>
      rcases List.mem_cons.mp member with rfl | member
      · exact Nat.le_max_left _ _
      · exact Nat.le_trans (inductionHypothesis member) (Nat.le_max_right _ _)

/-- A name that is longer than all names in the list. -/
def freshName (names : List Text) : Text :=
  List.replicate (longest names + 1) (Text.byte 'a')

theorem freshName_not_mem (names : List Text) : freshName names ∉ names := by
  intro member
  have bound := length_le_longest member
  rw [freshName, List.length_replicate] at bound
  omega

theorem isName_freshName (names : List Text) : Text.IsName (freshName names) := by
  refine ⟨by decide, ?_⟩
  intro b member
  rw [List.eq_of_mem_replicate member]
  decide

/-- Parameter names go on behind a comma only. -/
def NoComma (next : Terminal) : Prop :=
  next ≠ .mark .comma

theorem readNames_single (stop : Token) {function : Text} {seen : List Text} {token : Token}
    {more : List Token} (isName : token.kind = .name) (fresh : token.value ∉ seen)
    (follows : NoComma (upcoming more)) :
    readNames stop function seen (token :: more) = .ok ([token.value], more) := by
  rw [readNames_cons, if_pos isName, if_neg fresh]
  cases more with
  | nil => rfl
  | cons next others =>
      have noComma : next.kind ≠ .mark .comma := fun comma => follows (Token.terminal_of_mark comma)
      simp only [if_neg noComma]

theorem names_extensible (function : Text) (seen : List Text) (tokens : List Token) :
    Extensible NoComma (fun stop => readNames stop function seen) tokens := by
  match tokens with
  | [] =>
      refine .of_end (readNames_nil · function seen) ⟨[.name (freshName seen)], ?_, ?_⟩
      · simpa using ⟨isName_freshName seen, trivial⟩
      · refine .of_token fun stop token more same follows => ?_
        obtain ⟨isName, value⟩ := Token.of_terminal_name same
        exact ⟨_, readNames_single stop isName (value ▸ freshName_not_mem seen) follows⟩
  | token :: rest =>
      by_cases isName : token.kind = .name
      · by_cases taken : token.value ∈ seen
        · refine .of_error ⟨token, .duplicateParameter token.value function⟩ List.mem_cons_self
            fun stop more => ?_
          simp only [List.cons_append, readNames_cons, if_pos isName, if_pos taken]
        · match rest with
          | [] =>
              refine .of_ok [token.value] [] (by simp [NoComma]) (by simp) fun stop more follows => ?_
              exact readNames_single stop isName taken (follows rfl)
          | next :: others =>
              by_cases comma : next.kind = .mark .comma
              · have behind : Extensible NoComma (fun stop behind =>
                    (readNames stop function (token.value :: seen) behind).andThen fun names rest =>
                      .ok (token.value :: names, rest)) others :=
                  (names_extensible function (token.value :: seen) others).map
                refine behind.behind [token, next] fun stop more => ?_
                simp only [List.cons_append, List.nil_append, readNames_cons, if_pos isName,
                  if_neg taken, if_pos comma]
              · refine .of_ok [token.value] (next :: others) (by simp [NoComma])
                  (fun _ member => List.mem_cons_of_mem token member) fun stop more _ => ?_
                simp only [List.cons_append, readNames_cons, if_pos isName, if_neg taken, if_neg comma]
      · refine .of_error ⟨token, .expected [.name]⟩ List.mem_cons_self fun stop more => ?_
        simp only [List.cons_append, readNames_cons, if_neg isName]
termination_by tokens.length

theorem readClosing_completes (names : List Text) :
    Completes Anything (fun stop => readClosing stop names) [.mark .closeParen] := by
  refine .of_token fun stop token more same _ => ⟨names, ?_⟩
  have closes : token.kind = .mark .closeParen := Token.kind_of_terminal same
  simp [readClosing, closes]

theorem closing_extensible (names : List Text) (tokens : List Token) :
    Extensible Anything (fun stop => readClosing stop names) tokens := by
  cases tokens with
  | nil =>
      exact .of_end (fun _ => rfl)
        ⟨_, by simpa using soundMark .closeParen, readClosing_completes names⟩
  | cons token rest =>
      by_cases closes : token.kind = .mark .closeParen
      · refine .of_ok names rest trivial (fun _ member => List.mem_cons_of_mem token member)
          fun stop more _ => ?_
        simp only [List.cons_append, readClosing, if_pos closes]
      · refine .of_error ⟨token, .expected [.mark .comma, .mark .closeParen]⟩ List.mem_cons_self
          fun stop more => ?_
        simp only [List.cons_append, readClosing, if_neg closes]

theorem readParameters_completes (function : Text) :
    Completes Anything (fun stop => readParameters stop function) [.mark .closeParen] := by
  refine .of_token fun stop token more same _ => ⟨[], ?_⟩
  have closes : token.kind = .mark .closeParen := Token.kind_of_terminal same
  simp [readParameters_cons, closes]

theorem parameters_extensible (function : Text) (tokens : List Token) :
    Extensible Anything (fun stop => readParameters stop function) tokens := by
  cases tokens with
  | nil =>
      exact .of_end (readParameters_nil · function)
        ⟨_, by simpa using soundMark .closeParen, readParameters_completes function⟩
  | cons token rest =>
      by_cases closes : token.kind = .mark .closeParen
      · refine .of_ok [] rest trivial (fun _ member => List.mem_cons_of_mem token member)
          fun stop more _ => ?_
        simp only [List.cons_append, readParameters_cons, if_pos closes]
      · have sequence : Extensible Anything (fun stop behind =>
            (readNames stop function [] behind).andThen fun names rest =>
              readClosing stop names rest) (token :: rest) := by
          refine (names_extensible function [] (token :: rest)).andThen_required ?_ ?_ ?_
          · exact fun _ => closing_extensible _ _
          · exact fun stop names => ⟨_, rfl⟩
          · exact ⟨[.mark .closeParen], by simpa using soundMark .closeParen,
              fun _ _ => by simp [NoComma], readClosing_completes⟩
        refine sequence.behind [] fun stop more => ?_
        simp only [List.nil_append, List.cons_append, readParameters_cons, if_neg closes]

end Parameters

/-- Neither a terminator nor an alternative, nor anything that continues a
formula. -/
structure StatementEnds (next : Terminal) : Prop where
  formula : Follows loosest next
  terminator : next ≠ .keyword .terminator
  alternative : next ≠ .keyword .elseWord

def NoAlternative (next : Terminal) : Prop :=
  next ≠ .keyword .elseWord

theorem statementEnds_endOfFile : StatementEnds .endOfFile :=
  ⟨by decide, by simp, by simp⟩

theorem statementEnds_closeBlock : StatementEnds (.keyword .closeBlock) :=
  ⟨by decide, by simp, by simp⟩

section Terminators

theorem terminator_extensible (node : Node) (tokens : List Token) :
    Extensible Anything (fun stop => readTerminator stop node) tokens :=
  (readToken_extensible (soundKeyword .terminator) tokens).map

theorem readTerminator_resumable {δ : Type} {before : Terminal → Prop} (node : δ → Node)
    (fits : before (.keyword .terminator)) :
    Resumable before Anything fun given stop => readTerminator stop (node given) :=
  (readToken_resumable (soundKeyword .terminator) fits).andThen resumable_value

theorem skipTerminator_passes (node : Node) {more : List Token}
    (follows : StatementEnds (upcoming more)) : skipTerminator node more = .ok (node, more) := by
  cases more with
  | nil => rfl
  | cons token rest =>
      have other : token.kind ≠ .keyword .terminator :=
        fun word => follows.terminator (Token.terminal_of_keyword word)
      rw [skipTerminator, if_neg other]

theorem skip_extensible (node : Node) (tokens : List Token) :
    Extensible StatementEnds (fun _ => skipTerminator node) tokens := by
  cases tokens with
  | nil =>
      refine .of_ok node [] statementEnds_endOfFile (by simp) fun stop more follows => ?_
      exact skipTerminator_passes node (follows rfl)
  | cons token rest =>
      by_cases word : token.kind = .keyword .terminator
      · refine .of_ok node rest statementEnds_endOfFile
          (fun _ member => List.mem_cons_of_mem token member) fun stop more _ => ?_
        simp only [List.cons_append, skipTerminator, if_pos word]
      · refine .of_ok node (token :: rest) statementEnds_endOfFile (fun _ member => member)
          fun stop more _ => ?_
        simp only [List.cons_append, skipTerminator, if_neg word]

/-- An optional terminator behind a part of a statement. -/
theorem Extensible.andSkip {before : Terminal → Prop} {α : Type} {first : Reader α}
    {tokens : List Token} {node : α → Node} (extensible : Extensible before first tokens)
    (wider : ∀ next, StatementEnds next → before next) :
    Extensible StatementEnds (fun stop behind => (first stop behind).andThen fun value rest =>
      skipTerminator (node value) rest) tokens :=
  extensible.andThen_optional (fun _ => skip_extensible _ _) statementEnds_endOfFile
    (fun value _ _ follows => ⟨_, skipTerminator_passes (node value) follows⟩) wider

end Terminators

section Assignments

/-- Neither the sign of an assignment nor anything that continues a formula. -/
structure SideEnds (next : Terminal) : Prop where
  formula : Follows loosest next
  assign : next ≠ .mark .assign

theorem sideEnds_endOfFile : SideEnds .endOfFile :=
  ⟨by decide, by simp⟩

theorem readRightSide_passes (stop : Token) (left : Node) {more : List Token}
    (follows : SideEnds (upcoming more)) : readRightSide stop left more = .ok (left, more) := by
  cases more with
  | nil => rfl
  | cons token rest =>
      have other : token.kind ≠ .mark .assign :=
        fun assigns => follows.assign (Token.terminal_of_mark assigns)
      rw [readRightSide, if_neg other]

theorem rightSide_extensible (left : Node) (tokens : List Token) :
    Extensible SideEnds (fun stop => readRightSide stop left) tokens := by
  cases tokens with
  | nil =>
      refine .of_ok left [] sideEnds_endOfFile (by simp) fun stop more follows => ?_
      exact readRightSide_passes stop left (follows rfl)
  | cons token rest =>
      by_cases assigns : token.kind = .mark .assign
      · have behind : Extensible SideEnds (fun stop behind =>
            (readFormula stop loosest behind).andThen fun right rest =>
              .ok (joined .assign left right, rest)) rest :=
          ((formula_extensible rest).imp fun _ ends => ends.formula).map
        refine behind.behind [token] fun stop more => ?_
        simp only [List.cons_append, List.nil_append, readRightSide, if_pos assigns]
      · refine .of_ok left (token :: rest) sideEnds_endOfFile (fun _ member => member)
          fun stop more _ => ?_
        simp only [List.cons_append, readRightSide, if_neg assigns]

theorem assignment_extensible (tokens : List Token) : Extensible SideEnds readAssignment tokens := by
  have sequence : Extensible SideEnds (fun stop behind =>
      (readFormula stop loosest behind).andThen fun left rest => readRightSide stop left rest)
      tokens :=
    Extensible.andThen_optional (formula_extensible tokens) (fun _ => rightSide_extensible _ _)
      sideEnds_endOfFile (fun left stop _ follows => ⟨_, readRightSide_passes stop left follows⟩)
      fun _ ends => ends.formula
  exact sequence.behind [] fun stop more => readAssignment_eq stop (tokens ++ more)

theorem plain_extensible (tokens : List Token) :
    Extensible Anything (fun stop behind =>
      (readAssignment stop behind).andThen fun node rest => readTerminator stop node rest) tokens :=
  (assignment_extensible tokens).andThen_required (fun _ => terminator_extensible _ _)
    (fun _ _ => ⟨_, rfl⟩) (readTerminator_resumable id ⟨by decide, by simp⟩)

theorem print_extensible (token : Token) (tokens : List Token) :
    Extensible Anything (fun stop behind =>
      (readFormula stop loosest behind).andThen fun operand rest =>
        readTerminator stop (.unary (token.span.cover operand.span) .print operand) rest) tokens :=
  Extensible.andThen_required (formula_extensible tokens) (fun _ => terminator_extensible _ _)
    (fun _ _ => ⟨_, rfl⟩) (readTerminator_resumable _ (by decide))

end Assignments

section Blocks

/-- What is shown of the statement readers at a place. -/
def StatementExtensible (tokens : List Token) : Prop :=
  tokens ≠ [] → Extensible StatementEnds readStatement tokens

def DeclarationExtensible (tokens : List Token) : Prop :=
  ∀ first, Extensible Anything (fun stop => readDeclaration stop first) tokens

def ConditionalExtensible (tokens : List Token) : Prop :=
  ∀ first, Extensible NoAlternative (fun stop => readConditional stop first) tokens

def BlockExtensible (tokens : List Token) : Prop :=
  Extensible Anything readBlock tokens

def StatementsExtensible (tokens : List Token) : Prop :=
  Extensible Anything readStatements tokens

theorem readStatements_completes : Completes Anything readStatements [.keyword .closeBlock] := by
  refine .of_token fun stop token more same _ => ⟨([], token), ?_⟩
  have closes : token.kind = .keyword .closeBlock := Token.kind_of_terminal same
  rw [readStatements_cons, if_pos closes]

theorem readStatements_resumable {δ : Type} {before : Terminal → Prop}
    (fits : before (.keyword .closeBlock)) :
    Resumable before Anything fun (_ : δ) => readStatements :=
  ⟨[.keyword .closeBlock], by simpa using soundKeyword .closeBlock, fun _ _ => fits,
    fun _ => readStatements_completes⟩

theorem readBlock_nil (stop : Token) :
    readBlock stop [] = .error ⟨stop, .expected [.keyword .openBlock]⟩ := by
  rw [readBlock_eq]
  rfl

theorem readBlock_completes :
    Completes Anything readBlock [.keyword .openBlock, .keyword .closeBlock] := by
  intro stop added more written _
  obtain ⟨opening, back, rfl, isOpen, backWritten⟩ := List.map_eq_cons_iff.mp written
  obtain ⟨read, statementsRead⟩ := readStatements_completes stop back more backWritten trivial
  have opens : opening.kind = .keyword .openBlock := Token.kind_of_terminal isOpen
  refine ⟨.mk (opening.span.cover read.2.span) read.1, ?_⟩
  rw [readBlock_eq, List.cons_append, readToken_cons, if_pos opens, Answer.andThen_ok, statementsRead]
  rfl

theorem readBlock_resumable {δ : Type} {before : Terminal → Prop}
    (fits : before (.keyword .openBlock)) :
    Resumable before Anything fun (_ : δ) => readBlock :=
  ⟨[.keyword .openBlock, .keyword .closeBlock],
    by simpa using ⟨soundKeyword .openBlock, soundKeyword .closeBlock⟩,
    fun _ _ => fits, fun _ => readBlock_completes⟩

theorem block_extensible (tokens : List Token)
    (shorter : ∀ shorter : List Token, shorter.length < tokens.length → StatementsExtensible shorter) :
    BlockExtensible tokens := by
  have sequence : Extensible Anything (fun stop behind =>
      (readToken stop (.keyword .openBlock) behind).andThen fun first rest =>
        (readStatements stop rest).andThen fun read rest =>
          .ok (Block.mk (first.span.cover read.2.span) read.1, rest)) tokens := by
    refine (readToken_extensible (soundKeyword .openBlock) tokens).andThen_required ?_ ?_ ?_
    · exact fun read => Extensible.map (shorter _ (Answer.of_eq_ok read))
    · exact fun stop first => ⟨_, by rw [readStatements_nil]; rfl⟩
    · exact (readStatements_resumable trivial).andThen resumable_value
  exact sequence.behind [] fun stop more => readBlock_eq stop (tokens ++ more)

theorem statements_extensible (tokens : List Token) (statement : StatementExtensible tokens)
    (shorter : ∀ shorter : List Token, shorter.length < tokens.length → StatementsExtensible shorter) :
    StatementsExtensible tokens := by
  cases tokens with
  | nil =>
      exact .of_end readStatements_nil
        ⟨_, by simpa using soundKeyword .closeBlock, readStatements_completes⟩
  | cons token rest =>
      by_cases closes : token.kind = .keyword .closeBlock
      · refine .of_ok ([], token) rest trivial (fun _ member => List.mem_cons_of_mem token member)
          fun stop more _ => ?_
        rw [List.cons_append, readStatements_cons, if_pos closes]
      · have sequence : Extensible Anything (fun stop behind =>
            (readStatement stop behind).andThen fun first rest =>
              (readStatements stop rest).andThen fun read rest =>
                .ok ((first :: read.1, read.2), rest)) (token :: rest) := by
          refine (statement (by simp)).andThen_required ?_ ?_ ?_
          · exact fun read => Extensible.map (shorter _ (Answer.of_eq_ok read))
          · exact fun stop first => ⟨_, by rw [readStatements_nil]; rfl⟩
          · exact (readStatements_resumable statementEnds_closeBlock).andThen resumable_value
        refine sequence.behind [] fun stop more => ?_
        rw [List.nil_append, List.cons_append, readStatements_cons, if_neg closes]

/-- The body of a declaration whose name and parameters have been read. -/
def readBody (stop first name : Token) (names : List Text) (tokens : List Token) : Answer Node :=
  (readBlock stop tokens).andThen fun body rest =>
    .ok (.declaration (first.span.cover body.span) name.value names (some body), rest)

/-- The parameters of a declaration and what stands behind them. -/
def readSignature (stop first name : Token) (tokens : List Token) : Answer Node :=
  (readParameters stop name.value tokens).andThen fun names rest => readBody stop first name names rest

/-- What stands behind the name of a declaration. -/
def readHeader (stop first name : Token) (tokens : List Token) : Answer Node :=
  (readToken stop (.mark .openParen) tokens).andThen fun _ rest => readSignature stop first name rest

theorem readSignature_resumable {δ : Type} (first : Token) (name : δ → Token) :
    Resumable Anything Anything fun given stop => readSignature stop first (name given) := by
  have parameters : Resumable Anything Anything fun given stop =>
      readParameters stop (name given).value :=
    ⟨[.mark .closeParen], by simpa using soundMark .closeParen, fun _ _ => trivial,
      fun given => readParameters_completes (name given).value⟩
  exact parameters.andThen ((readBlock_resumable trivial).andThen resumable_value)

theorem readHeader_resumable (first : Token) :
    Resumable Anything Anything fun name stop => readHeader stop first name :=
  (readToken_resumable (soundMark .openParen) trivial).andThen
    (readSignature_resumable first Prod.fst)

theorem signature_extensible (first name : Token) (tokens : List Token)
    (shorter : ∀ shorter : List Token, shorter.length < tokens.length → BlockExtensible shorter) :
    Extensible Anything (fun stop => readSignature stop first name) tokens := by
  refine (parameters_extensible name.value tokens).andThen_required ?_ ?_ ?_
  · exact fun read => Extensible.map (shorter _ (Answer.of_eq_ok read))
  · exact fun stop names => ⟨_, by rw [readBody, readBlock_nil]; rfl⟩
  · exact (readBlock_resumable trivial).andThen resumable_value

theorem header_extensible (first name : Token) (tokens : List Token)
    (shorter : ∀ shorter : List Token, shorter.length < tokens.length → BlockExtensible shorter) :
    Extensible Anything (fun stop => readHeader stop first name) tokens := by
  refine (readToken_extensible (soundMark .openParen) tokens).andThen_required ?_ ?_ ?_
  · intro stop opening rest read
    have fewer : rest.length < tokens.length := Answer.of_eq_ok read
    exact signature_extensible first name rest fun others less => shorter others (by omega)
  · exact fun stop opening => ⟨_, rfl⟩
  · exact readSignature_resumable first fun _ => name

theorem declaration_extensible (tokens : List Token)
    (shorter : ∀ shorter : List Token, shorter.length < tokens.length → BlockExtensible shorter) :
    DeclarationExtensible tokens := by
  intro first
  have soundName : (Terminal.name (freshName [])).Sound := ⟨isName_freshName [], trivial⟩
  have sequence : Extensible Anything (fun stop behind =>
      (readToken stop .name behind).andThen fun name rest => readHeader stop first name rest)
      tokens := by
    refine Extensible.andThen_required (readToken_extensible soundName tokens) ?_ ?_ ?_
    · intro stop name rest read
      have fewer : rest.length < tokens.length := Answer.of_eq_ok read
      exact header_extensible first name rest fun others less => shorter others (by omega)
    · exact fun stop name => ⟨_, rfl⟩
    · exact readHeader_resumable first
  exact sequence.behind [] fun stop more => readDeclaration_eq stop first (tokens ++ more)

theorem readBranch_completes :
    Completes Anything readBranch [.keyword .openBlock, .keyword .closeBlock] := by
  intro stop added more written _
  obtain ⟨body, read⟩ := readBlock_completes stop added more written trivial
  obtain ⟨opening, back, rfl, isOpen, _⟩ := List.map_eq_cons_iff.mp written
  have opens : opening.kind = .keyword .openBlock := Token.kind_of_terminal isOpen
  refine ⟨.block body, ?_⟩
  rw [List.cons_append] at read ⊢
  simp [readBranch, opens, read]

theorem branch_extensible (tokens : List Token)
    (within : ∀ shorter : List Token, shorter.length ≤ tokens.length →
      BlockExtensible shorter ∧ ConditionalExtensible shorter) :
    Extensible NoAlternative readBranch tokens := by
  cases tokens with
  | nil =>
      refine .imp ?_ fun _ _ => trivial
      exact .of_end (fun _ => rfl)
        ⟨_, by simpa using ⟨soundKeyword .openBlock, soundKeyword .closeBlock⟩, readBranch_completes⟩
  | cons next rest =>
      by_cases isIf : next.kind = .keyword .ifWord
      · refine ((within rest (by simp)).2 next).behind [next] fun stop more => ?_
        simp only [List.cons_append, List.nil_append, readBranch, if_pos isIf]
      · by_cases isOpen : next.kind = .keyword .openBlock
        · have block : Extensible Anything (fun stop behind =>
              (readBlock stop behind).andThen fun body rest => .ok (Node.block body, rest))
              (next :: rest) := Extensible.map (within (next :: rest) (by simp)).1
          refine (block.behind [] fun stop more => ?_).imp fun _ _ => trivial
          simp only [List.nil_append, List.cons_append, readBranch, if_neg isIf, if_pos isOpen]
        · refine .of_error ⟨next, .expected [.keyword .ifWord, .keyword .openBlock]⟩ List.mem_cons_self
            fun stop more => ?_
          simp only [List.cons_append, readBranch, if_neg isIf, if_neg isOpen]

theorem readAlternative_passes (stop first : Token) (condition : Node) (body : Block)
    {more : List Token} (follows : NoAlternative (upcoming more)) :
    readAlternative stop first condition body more =
      .ok (.conditional (first.span.cover body.span) condition (some body) none, more) := by
  cases more with
  | nil => rfl
  | cons token rest =>
      have other : token.kind ≠ .keyword .elseWord :=
        fun word => follows (Token.terminal_of_keyword word)
      rw [readAlternative, if_neg other]

theorem alternative_extensible (first : Token) (condition : Node) (body : Block) (tokens : List Token)
    (shorter : ∀ shorter : List Token, shorter.length < tokens.length →
      BlockExtensible shorter ∧ ConditionalExtensible shorter) :
    Extensible NoAlternative (fun stop => readAlternative stop first condition body) tokens := by
  cases tokens with
  | nil =>
      refine .of_ok (.conditional (first.span.cover body.span) condition (some body) none) []
        (by simp [NoAlternative]) (by simp) fun stop more follows => ?_
      exact readAlternative_passes stop first condition body (follows rfl)
  | cons token rest =>
      by_cases isElse : token.kind = .keyword .elseWord
      · have branch : Extensible NoAlternative (fun stop behind =>
            (readBranch stop behind).andThen fun alternative rest =>
              .ok (Node.conditional (first.span.cover alternative.span) condition (some body)
                (some alternative), rest)) rest :=
          (branch_extensible rest fun others less =>
            shorter others (by simp only [List.length_cons]; omega)).map
        refine branch.behind [token] fun stop more => ?_
        simp only [List.cons_append, List.nil_append, readAlternative, if_pos isElse]
      · refine .of_ok (.conditional (first.span.cover body.span) condition (some body) none)
          (token :: rest) (by simp [NoAlternative]) (fun _ member => member) fun stop more _ => ?_
        simp only [List.cons_append, readAlternative, if_neg isElse]

/-- The block of a conditional and its alternative, if there is one. -/
def readConsequent (stop first : Token) (condition : Node) (tokens : List Token) : Answer Node :=
  (readBlock stop tokens).andThen fun body rest => readAlternative stop first condition body rest

theorem readConsequent_resumable (first : Token) :
    Resumable (Follows loosest) NoAlternative fun condition stop =>
      readConsequent stop first condition := by
  refine (readBlock_resumable (by decide : Follows loosest (.keyword .openBlock))).andThen ?_
  refine ⟨[], by simp, fun _ _ => trivial, ?_⟩
  intro given stop added more written follows
  obtain rfl : added = [] := by simpa using written
  exact ⟨_, readAlternative_passes stop first given.1 given.2 follows⟩

theorem consequent_extensible (first : Token) (condition : Node) (tokens : List Token)
    (block : BlockExtensible tokens)
    (shorter : ∀ shorter : List Token, shorter.length < tokens.length →
      BlockExtensible shorter ∧ ConditionalExtensible shorter) :
    Extensible NoAlternative (fun stop => readConsequent stop first condition) tokens := by
  refine Extensible.andThen_optional block ?_ (by simp [NoAlternative]) ?_ fun _ _ => trivial
  · intro stop body rest read
    have fewer : rest.length < tokens.length := Answer.of_eq_ok read
    exact alternative_extensible first condition body rest fun others less => shorter others (by omega)
  · exact fun body stop more follows => ⟨_, readAlternative_passes stop first condition body follows⟩

theorem conditional_extensible (tokens : List Token)
    (shorter : ∀ shorter : List Token, shorter.length < tokens.length →
      BlockExtensible shorter ∧ ConditionalExtensible shorter) :
    ConditionalExtensible tokens := by
  intro first
  have sequence : Extensible NoAlternative (fun stop behind =>
      (readFormula stop loosest behind).andThen fun condition rest =>
        readConsequent stop first condition rest) tokens := by
    refine Extensible.andThen_required (formula_extensible tokens) ?_ ?_ ?_
    · intro stop condition rest read
      have fewer : rest.length < tokens.length := Answer.of_eq_ok read
      exact consequent_extensible first condition rest (shorter rest fewer).1
        fun others less => shorter others (by omega)
    · exact fun stop condition => ⟨_, by rw [readConsequent, readBlock_nil]; rfl⟩
    · exact readConsequent_resumable first
  exact sequence.behind [] fun stop more => readConditional_eq stop first (tokens ++ more)

theorem statement_extensible (tokens : List Token)
    (shorter : ∀ shorter : List Token, shorter.length < tokens.length →
      DeclarationExtensible shorter ∧ ConditionalExtensible shorter) :
    StatementExtensible tokens := by
  intro nonempty
  cases tokens with
  | nil => contradiction
  | cons token rest =>
      by_cases isFunction : token.kind = .keyword .function
      · have declaration : Extensible StatementEnds (fun stop behind =>
            (readDeclaration stop token behind).andThen fun node rest => skipTerminator node rest)
            rest := ((shorter rest (by simp)).1 token).andSkip fun _ _ => trivial
        exact declaration.behind [token] fun stop more =>
          readStatement_declaration stop isFunction (rest ++ more)
      by_cases isGiveBack : token.kind = .keyword .giveBack
      · have giveBack : Extensible StatementEnds (fun stop behind =>
            (readFormula stop loosest behind).andThen fun value rest =>
              skipTerminator (.giveBack (token.span.cover value.span) value) rest) rest :=
          Extensible.andSkip (formula_extensible rest) fun _ ends => ends.formula
        exact giveBack.behind [token] fun stop more =>
          readStatement_giveBack stop isGiveBack (rest ++ more)
      by_cases isIf : token.kind = .keyword .ifWord
      · have conditional : Extensible StatementEnds (fun stop behind =>
            (readConditional stop token behind).andThen fun node rest => skipTerminator node rest)
            rest := ((shorter rest (by simp)).2 token).andSkip fun _ ends => ends.alternative
        exact conditional.behind [token] fun stop more =>
          readStatement_conditional stop isIf (rest ++ more)
      by_cases isPrint : token.kind = .keyword .print
      · exact ((print_extensible token rest).behind [token] fun stop more =>
          readStatement_print stop isPrint (rest ++ more)).imp fun _ _ => trivial
      · have plain : token.kind ∉ statementWords := by
          simp [statementWords, isFunction, isGiveBack, isIf, isPrint]
        exact ((plain_extensible (token :: rest)).behind [] fun stop more =>
          readStatement_plain stop plain (rest ++ more)).imp fun _ _ => trivial

theorem readStatement_extensible {tokens : List Token} (nonempty : tokens ≠ []) :
    Extensible StatementEnds readStatement tokens :=
  (statements_induction statement_extensible declaration_extensible conditional_extensible
    block_extensible statements_extensible tokens).1 nonempty

end Blocks

section Programs

/-- A program fails in its first statement or behind it. -/
theorem readProgram_cons_error {stop token : Token} {rest : List Token} {error : SyntaxError}
    (refused : readProgram stop (token :: rest) = .error error) :
    readStatement stop (token :: rest) = .error error ∨
      ∃ first others, readStatement stop (token :: rest) = .ok (first, others) ∧ others ≠ [] ∧
        readProgram stop others = .error error := by
  rw [readProgram_cons] at refused
  rcases Answer.andThen_eq_error refused with failed | ⟨first, others, read, behind⟩
  · exact .inl failed
  · rcases Answer.andThen_eq_error behind with failed | ⟨_, _, _, impossible⟩
    · refine .inr ⟨first, others, read, ?_, failed⟩
      rintro rfl
      rw [readProgram_nil] at failed
      contradiction
    · contradiction

/-- An objection to a token stays whatever follows the program. -/
theorem readProgram_refused {stop : Token} {tokens : List Token} {error : SyntaxError}
    (isEnd : stop.kind = .endOfFile) (refused : readProgram stop tokens = .error error)
    (real : error.atEnd = false) (stop' : Token) (more : List Token) :
    readProgram stop' (tokens ++ more) = .error error := by
  match tokens with
  | [] =>
      rw [readProgram_nil] at refused
      contradiction
  | token :: rest =>
      have extensible := readStatement_extensible (List.cons_ne_nil token rest)
      rw [List.cons_append, readProgram_cons, ← List.cons_append]
      rcases readProgram_cons_error refused with failed | ⟨first, others, read, nonempty, behind⟩
      · rw [extensible.refused isEnd failed real stop' more, Answer.andThen_error]
      · have fewer : others.length < (token :: rest).length := Answer.of_eq_ok read
        rw [extensible.accepted read stop' more fun empty => absurd empty nonempty,
          Answer.andThen_ok, readProgram_refused isEnd behind real stop' more, Answer.andThen_error]
termination_by tokens.length
decreasing_by exact fewer

/-- A program that ran out of tokens can be completed. -/
theorem readProgram_completed {stop : Token} {tokens : List Token} {error : SyntaxError}
    (solid : ∀ token ∈ tokens, token.kind ≠ .endOfFile)
    (refused : readProgram stop tokens = .error error) (atEnd : error.atEnd = true) :
    ∃ suffix : List Terminal, (∀ terminal ∈ suffix, terminal.Sound) ∧
      ∀ stop' added, added.map Token.terminal = suffix →
        ∃ nodes, readProgram stop' (tokens ++ added) = .ok (nodes, []) := by
  match tokens with
  | [] =>
      rw [readProgram_nil] at refused
      contradiction
  | token :: rest =>
      have extensible := readStatement_extensible (List.cons_ne_nil token rest)
      rcases readProgram_cons_error refused with failed | ⟨first, others, read, nonempty, behind⟩
      · obtain ⟨suffix, sound, completes⟩ := extensible.completed solid failed atEnd
        refine ⟨suffix, sound, fun stop' added written => ?_⟩
        obtain ⟨node, read⟩ := completes stop' added [] written statementEnds_endOfFile
        dsimp only at read
        rw [List.append_nil] at read
        refine ⟨[node], ?_⟩
        rw [List.cons_append, readProgram_cons, ← List.cons_append, read, Answer.andThen_ok,
          readProgram_nil, Answer.andThen_ok]
      · have inside := extensible.remains read
        have fewer : others.length < (token :: rest).length := Answer.of_eq_ok read
        obtain ⟨suffix, sound, completes⟩ := readProgram_completed
          (fun token member => solid token (inside token member)) behind atEnd
        refine ⟨suffix, sound, fun stop' added written => ?_⟩
        obtain ⟨nodes, behindRead⟩ := completes stop' added written
        refine ⟨first :: nodes, ?_⟩
        rw [List.cons_append, readProgram_cons, ← List.cons_append,
          extensible.accepted read stop' added fun empty => absurd empty nonempty,
          Answer.andThen_ok, behindRead, Answer.andThen_ok]
termination_by tokens.length
decreasing_by exact fewer

end Programs

end Parlance.Grammar
