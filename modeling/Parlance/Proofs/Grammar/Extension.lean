import Parlance.Proofs.Grammar.Completeness
import Parlance.Proofs.Scanning.Spelling

namespace Parlance.Grammar

open Parlance.Derivation

/-!
What more tokens change. A reader that was content stays content if the next
token cannot continue what it read, a reader that objected to a token objects
to it whatever follows, and a reader that ran out of tokens can be satisfied.
These three facts are shown together, rule by rule.
-/

/-- A reader, given the token at the end of file. -/
abbrev Reader (α : Type) := Token → List Token → Answer α

/-- Tokens of these terminals make the reader answer and take nothing else,
provided that something of the follow set comes behind them. -/
def Completes {α : Type} (follow : Terminal → Prop) (read : Reader α)
    (suffix : List Terminal) : Prop :=
  ∀ stop added more, added.map Token.terminal = suffix → follow (upcoming more) →
    ∃ value, read stop (added ++ more) = .ok (value, more)

theorem Completes.of_token {α : Type} {follow : Terminal → Prop} {read : Reader α}
    {terminal : Terminal}
    (reads : ∀ stop token more, token.terminal = terminal → follow (upcoming more) →
      ∃ value, read stop (token :: more) = .ok (value, more)) : Completes follow read [terminal] := by
  intro stop added more written follows
  obtain ⟨token, rfl, same⟩ : ∃ token, added = [token] ∧ token.terminal = terminal := by
    simpa [List.map_eq_cons_iff] using written
  exact reads stop token more same follows

def Completable {α : Type} (follow : Terminal → Prop) (read : Reader α) : Prop :=
  ∃ suffix : List Terminal, (∀ terminal ∈ suffix, terminal.Sound) ∧ Completes follow read suffix

/-- How a reader at `tokens` responds to more of them. -/
structure Extensible {α : Type} (follow : Terminal → Prop) (read : Reader α)
    (tokens : List Token) : Prop where
  remains : ∀ {stop value rest}, read stop tokens = .ok (value, rest) →
    ∀ token ∈ rest, token ∈ tokens
  accepted : ∀ {stop value rest}, read stop tokens = .ok (value, rest) →
    ∀ stop' more, (rest = [] → follow (upcoming more)) →
      read stop' (tokens ++ more) = .ok (value, rest ++ more)
  refused : ∀ {stop error}, stop.kind = .endOfFile → read stop tokens = .error error →
    error.atEnd = false → ∀ stop' more, read stop' (tokens ++ more) = .error error
  completed : ∀ {stop error}, (∀ token ∈ tokens, token.kind ≠ .endOfFile) →
    read stop tokens = .error error → error.atEnd = true →
      Completable follow fun stop' behind => read stop' (tokens ++ behind)

/-- A part of a rule can be completed from nothing, whatever was read in front
of it, by terminals that do not continue what stands in front. -/
def Resumable {α β : Type} (before follow : Terminal → Prop) (read : α → Reader β) : Prop :=
  ∃ suffix : List Terminal, (∀ terminal ∈ suffix, terminal.Sound) ∧
    (∀ next, follow next → before (suffix.headD next)) ∧
    ∀ value, Completes follow (read value) suffix

theorem upcoming_append (added more : List Token) :
    upcoming (added ++ more) = (added.map Token.terminal).headD (upcoming more) := by
  unfold upcoming
  rw [List.map_append, headD_append]

section Answers

variable {α : Type} {follow : Terminal → Prop} {read : Reader α} {tokens : List Token}

/-- The answer does not depend on what follows. -/
theorem Extensible.of_ok (value : α) (rest : List Token) (ends : follow .endOfFile)
    (inside : ∀ token ∈ rest, token ∈ tokens)
    (reads : ∀ stop more, (rest = [] → follow (upcoming more)) →
      read stop (tokens ++ more) = .ok (value, rest ++ more)) : Extensible follow read tokens := by
  have answer : ∀ stop, read stop tokens = .ok (value, rest) := by
    intro stop
    simpa using reads stop [] fun _ => ends
  constructor
  · intro stop value rest accepted
    cases (answer stop).symm.trans accepted
    exact inside
  · intro stop value rest accepted
    cases (answer stop).symm.trans accepted
    exact reads
  · intro stop error _ refused
    cases (answer stop).symm.trans refused
  · intro stop error _ refused
    cases (answer stop).symm.trans refused

/-- The objection is to a token that is there. -/
theorem Extensible.of_error (error : SyntaxError) (inside : error.token ∈ tokens)
    (reads : ∀ stop more, read stop (tokens ++ more) = .error error) :
    Extensible follow read tokens := by
  have answer : ∀ stop, read stop tokens = .error error := by
    intro stop
    simpa using reads stop []
  constructor
  · intro stop value rest accepted
    cases (answer stop).symm.trans accepted
  · intro stop value rest accepted
    cases (answer stop).symm.trans accepted
  · intro stop error' _ refused
    cases (answer stop).symm.trans refused
    exact fun _ => reads
  · intro stop error' solid refused atEnd
    cases (answer stop).symm.trans refused
    exact absurd (by simpa [SyntaxError.atEnd] using atEnd) (solid error.token inside)

/-- The tokens ran out. -/
theorem Extensible.of_end {fault : SyntaxFault}
    (reads : ∀ stop, read stop tokens = .error ⟨stop, fault⟩)
    (completable : Completable follow fun stop behind => read stop (tokens ++ behind)) :
    Extensible follow read tokens := by
  constructor
  · intro stop value rest accepted
    cases (reads stop).symm.trans accepted
  · intro stop value rest accepted
    cases (reads stop).symm.trans accepted
  · intro stop error isEnd refused
    cases (reads stop).symm.trans refused
    simp [SyntaxError.atEnd, isEnd]
  · exact fun _ _ _ => completable

theorem Extensible.imp {wider : Terminal → Prop} (extensible : Extensible wider read tokens)
    (narrows : ∀ next, follow next → wider next) : Extensible follow read tokens := by
  refine ⟨extensible.remains, ?_, extensible.refused, ?_⟩
  · exact fun accepted stop' more continues =>
      extensible.accepted accepted stop' more fun empty => narrows _ (continues empty)
  · intro stop error solid refused atEnd
    obtain ⟨suffix, sound, completes⟩ := extensible.completed solid refused atEnd
    exact ⟨suffix, sound, fun stop added more written follows =>
      completes stop added more written (narrows _ follows)⟩

/-- A reader that takes some tokens off the front and goes on as another one. -/
theorem Extensible.behind {other : Reader α} (extensible : Extensible follow other tokens)
    (front : List Token)
    (same : ∀ stop more, read stop (front ++ tokens ++ more) = other stop (tokens ++ more)) :
    Extensible follow read (front ++ tokens) := by
  have answer : ∀ stop, read stop (front ++ tokens) = other stop tokens := by
    intro stop
    simpa using same stop []
  constructor
  · intro stop value rest accepted token member
    rw [answer] at accepted
    exact List.mem_append_right _ (extensible.remains accepted token member)
  · intro stop value rest accepted stop' more continues
    rw [answer] at accepted
    rw [same]
    exact extensible.accepted accepted stop' more continues
  · intro stop error isEnd refused real stop' more
    rw [answer] at refused
    rw [same]
    exact extensible.refused isEnd refused real stop' more
  · intro stop error solid refused atEnd
    rw [answer] at refused
    obtain ⟨suffix, sound, completes⟩ := extensible.completed
      (fun token member => solid token (List.mem_append_right _ member)) refused atEnd
    refine ⟨suffix, sound, fun stop added more written follows => ?_⟩
    dsimp only
    rw [same]
    exact completes stop added more written follows

end Answers

section Sequences

variable {α β : Type} {before follow : Terminal → Prop} {first : Reader α}
  {second : α → Reader β} {tokens : List Token}

/-- Without tokens, a part of a rule is either complete, and then it may be
followed by what follows the part in front of it, or runs out of them. -/
def Bounded (before follow : Terminal → Prop) (second : α → Reader β) : Prop :=
  ∀ stop value, (∃ result, second value stop [] = .ok result ∧ ∀ next, follow next → before next) ∨
    ∃ fault, second value stop [] = .error ⟨stop, fault⟩

/-- Two parts of a rule, one after the other. -/
theorem Extensible.andThen (extensible : Extensible before first tokens)
    (continues : ∀ {stop value rest}, first stop tokens = .ok (value, rest) →
      Extensible follow (second value) rest)
    (bounded : Bounded before follow second) (resumable : Resumable before follow second) :
    Extensible follow (fun stop behind => (first stop behind).andThen fun value rest =>
      second value stop rest) tokens := by
  constructor
  · intro stop value rest accepted token member
    obtain ⟨_, _, firstRead, secondRead⟩ := Answer.andThen_eq_ok accepted
    exact extensible.remains firstRead _ ((continues firstRead).remains secondRead token member)
  · intro stop value rest accepted stop' more follows
    obtain ⟨read, middle, firstRead, secondRead⟩ := Answer.andThen_eq_ok accepted
    have firstRead' := extensible.accepted firstRead stop' more (by
      rintro rfl
      have empty : rest = [] :=
        List.eq_nil_iff_forall_not_mem.mpr fun token member =>
          List.not_mem_nil ((continues firstRead).remains secondRead token member)
      rcases bounded stop read with ⟨_, _, wider⟩ | ⟨fault, failed⟩
      · exact wider _ (follows empty)
      · cases failed.symm.trans secondRead)
    rw [firstRead', Answer.andThen_ok]
    exact (continues firstRead).accepted secondRead stop' more follows
  · intro stop error isEnd refused real stop' more
    rcases Answer.andThen_eq_error refused with firstFailed | ⟨read, middle, firstRead, secondFailed⟩
    · rw [extensible.refused isEnd firstFailed real stop' more, Answer.andThen_error]
    · have firstRead' := extensible.accepted firstRead stop' more (by
        rintro rfl
        rcases bounded stop read with ⟨_, found, _⟩ | ⟨fault, failed⟩
        · cases found.symm.trans secondFailed
        · cases failed.symm.trans secondFailed
          simp [SyntaxError.atEnd, isEnd] at real)
      rw [firstRead', Answer.andThen_ok]
      exact (continues firstRead).refused isEnd secondFailed real stop' more
  · intro stop error solid refused atEnd
    obtain ⟨tail, tailSound, wider, tailCompletes⟩ := resumable
    rcases Answer.andThen_eq_error refused with firstFailed | ⟨read, middle, firstRead, secondFailed⟩
    · obtain ⟨suffix, sound, completes⟩ := extensible.completed solid firstFailed atEnd
      refine ⟨suffix ++ tail, List.forall_mem_append.mpr ⟨sound, tailSound⟩, ?_⟩
      intro stop added more written follows
      obtain ⟨front, back, rfl, frontWritten, backWritten⟩ := List.map_eq_append_iff.mp written
      obtain ⟨value, firstRead⟩ := completes stop front (back ++ more) frontWritten (by
        rw [upcoming_append, backWritten]
        exact wider _ follows)
      obtain ⟨whole, secondRead⟩ := tailCompletes value stop back more backWritten follows
      dsimp only at firstRead ⊢
      rw [List.append_assoc, firstRead]
      exact ⟨whole, secondRead⟩
    · cases middle with
      | nil =>
          -- nothing is left for the second part, which is completed from its start
          refine ⟨tail, tailSound, ?_⟩
          intro stop' added more written follows
          have firstRead' := extensible.accepted firstRead stop' (added ++ more) (by
            intro _
            rw [upcoming_append, written]
            exact wider _ follows)
          dsimp only
          rw [firstRead']
          exact tailCompletes read stop' added more written follows
      | cons token others =>
          have inside := extensible.remains firstRead
          obtain ⟨suffix, sound, completes⟩ := (continues firstRead).completed
            (fun token member => solid token (inside token member)) secondFailed atEnd
          refine ⟨suffix, sound, ?_⟩
          intro stop' added more written follows
          have firstRead' := extensible.accepted firstRead stop' (added ++ more) (by simp)
          dsimp only
          rw [firstRead']
          exact completes stop' added more written follows

/-- The second part may be left out. -/
theorem Extensible.andThen_optional (extensible : Extensible before first tokens)
    (continues : ∀ {stop value rest}, first stop tokens = .ok (value, rest) →
      Extensible follow (second value) rest)
    (ends : follow .endOfFile)
    (passes : ∀ value stop more, follow (upcoming more) →
      ∃ result, second value stop more = .ok (result, more))
    (wider : ∀ next, follow next → before next) :
    Extensible follow (fun stop behind => (first stop behind).andThen fun value rest =>
      second value stop rest) tokens := by
  refine extensible.andThen continues ?_ ⟨[], by simp, wider, ?_⟩
  · intro stop value
    obtain ⟨result, read⟩ := passes value stop [] ends
    exact .inl ⟨_, read, wider⟩
  · intro value stop added more written follows
    obtain rfl : added = [] := by simpa using written
    exact passes value stop more follows

/-- The second part has to stand there. -/
theorem Extensible.andThen_required (extensible : Extensible before first tokens)
    (continues : ∀ {stop value rest}, first stop tokens = .ok (value, rest) →
      Extensible follow (second value) rest)
    (runsOut : ∀ stop value, ∃ fault, second value stop [] = .error ⟨stop, fault⟩)
    (resumable : Resumable before follow second) :
    Extensible follow (fun stop behind => (first stop behind).andThen fun value rest =>
      second value stop rest) tokens :=
  extensible.andThen continues (fun stop value => .inr (runsOut stop value)) resumable

theorem value_extensible (value : α) :
    Extensible follow (fun _ rest => .ok (value, rest)) tokens := by
  constructor
  · intro stop value rest accepted
    cases accepted
    exact fun _ member => member
  · intro stop value rest accepted stop' more _
    cases accepted
    rfl
  · intro stop error _ refused
    cases refused
  · intro stop error _ refused
    cases refused

theorem resumable_value {δ : Type} {make : δ → β} :
    Resumable follow follow fun given _ rest => .ok (make given, rest) := by
  refine ⟨[], by simp, fun _ follows => follows, ?_⟩
  intro given stop added more written _
  obtain rfl : added = [] := by simpa using written
  exact ⟨_, rfl⟩

/-- What is made of a value does not matter. -/
theorem Extensible.map {make : α → β} (extensible : Extensible follow first tokens) :
    Extensible follow (fun stop behind => (first stop behind).andThen fun value rest =>
      .ok (make value, rest)) tokens := by
  refine extensible.andThen (fun _ => value_extensible _) ?_ resumable_value
  exact fun _ _ => .inl ⟨_, rfl, fun _ follows => follows⟩

/-- The same for completing from nothing: the terminals of the parts, one
after the other. -/
theorem Resumable.andThen {γ δ : Type} {outer : Terminal → Prop} {start : δ → Reader α}
    {next : δ → α → Reader γ} (resumable : Resumable outer before start)
    (continues : Resumable before follow fun parts : δ × α => next parts.1 parts.2) :
    Resumable outer follow fun given stop behind =>
      (start given stop behind).andThen fun value rest => next given value stop rest := by
  obtain ⟨suffix, sound, wider, completes⟩ := resumable
  obtain ⟨tail, tailSound, tailWider, tailCompletes⟩ := continues
  refine ⟨suffix ++ tail, List.forall_mem_append.mpr ⟨sound, tailSound⟩, ?_, ?_⟩
  · intro next follows
    rw [headD_append]
    exact wider _ (tailWider _ follows)
  · intro given stop added more written follows
    obtain ⟨front, back, rfl, frontWritten, backWritten⟩ := List.map_eq_append_iff.mp written
    obtain ⟨value, read⟩ := completes given stop front (back ++ more) frontWritten (by
      rw [upcoming_append, backWritten]
      exact tailWider _ follows)
    dsimp only
    rw [List.append_assoc, read]
    exact tailCompletes (given, value) stop back more backWritten follows

end Sequences

/-- Everything may follow. -/
def Anything (_ : Terminal) : Prop := True

theorem readToken_completes (terminal : Terminal) :
    Completes Anything (fun stop => readToken stop terminal.kind) [terminal] := by
  refine .of_token fun stop token more same _ => ⟨token, ?_⟩
  simp only [readToken_cons, if_pos (Token.kind_of_terminal same)]

theorem readToken_extensible {terminal : Terminal} (sound : terminal.Sound) (tokens : List Token) :
    Extensible Anything (fun stop => readToken stop terminal.kind) tokens := by
  cases tokens with
  | nil =>
      exact .of_end (readToken_nil · terminal.kind)
        ⟨[terminal], by simpa using sound, readToken_completes terminal⟩
  | cons token rest =>
      by_cases same : token.kind = terminal.kind
      · refine .of_ok token rest trivial (fun _ member => List.mem_cons_of_mem token member) ?_
        intro stop more _
        simp only [List.cons_append, readToken_cons, if_pos same]
      · refine .of_error ⟨token, .expected [terminal.kind]⟩ List.mem_cons_self ?_
        intro stop more
        simp only [List.cons_append, readToken_cons, if_neg same]

theorem readToken_resumable {δ : Type} {before : Terminal → Prop} {terminal : Terminal}
    (sound : terminal.Sound) (fits : before terminal) :
    Resumable before Anything fun (_ : δ) stop => readToken stop terminal.kind :=
  ⟨[terminal], by simpa using sound, fun _ _ => fits, fun _ => readToken_completes terminal⟩

section Formulas

theorem readChain_ends (stop : Token) {level : Nat} (left : Node) {more : List Token}
    (follows : Follows (level + 1) (upcoming more)) :
    readChain stop level left more = .ok (left, more) := by
  cases more with
  | nil => exact readChain_nil stop level left
  | cons token rest =>
      have unbound : operator? level token.kind = none :=
        operator?_eq_none_iff.mpr (follows.2 level (Nat.lt_succ_self level))
      rw [readChain_cons, unbound]

theorem follows_endOfFile (level : Nat) : Follows level .endOfFile :=
  ⟨by simp, fun _ _ _ binds same => sign_ne_endOfFile binds same.symm⟩

/-- The numeral that completes a formula. -/
def zero : Terminal := .number [Text.byte '0']

theorem sound_zero : zero.Sound :=
  ⟨⟨by simp, by decide +kernel⟩, show (Text.toInt64? [Text.byte '0']).isSome = true by decide +kernel⟩

theorem readPrimary_completes : Completes (Follows 0) (fun stop => readFormula stop 0) [zero] := by
  refine .of_token fun stop token more same _ => ?_
  obtain ⟨isNumber, digits⟩ := Token.of_terminal_number same
  obtain ⟨value, read⟩ : ∃ value, Text.toInt64? token.value = some value :=
    Option.isSome_iff_exists.mp (digits ▸ sound_zero.2)
  refine ⟨.number token.span value, ?_⟩
  simp only [readPrimary_number stop isNumber, read]

/-- What is shown of the formula readers at a place. -/
def FormulaExtensible (level : Nat) (tokens : List Token) : Prop :=
  Extensible (Follows level) (fun stop => readFormula stop level) tokens

def ChainExtensible (level : Nat) (tokens : List Token) : Prop :=
  ∀ left, Extensible (Follows (level + 1)) (fun stop => readChain stop level left) tokens

theorem soundMark (symbol : Symbol) : (Terminal.mark symbol).Sound :=
  ⟨trivial, trivial⟩

theorem soundKeyword (word : Keyword) : (Terminal.keyword word).Sound :=
  ⟨trivial, trivial⟩

theorem group_extensible {opening : Token} {rest : List Token}
    (isOpen : opening.kind = .mark .openParen) (inner : FormulaExtensible loosest rest) :
    FormulaExtensible 0 (opening :: rest) := by
  have behind : Extensible Anything (fun stop behind =>
      (readFormula stop loosest behind).andThen fun inner rest =>
        (readToken stop (.mark .closeParen) rest).andThen fun _ rest => .ok (inner, rest)) rest := by
    refine Extensible.andThen_required inner ?_ ?_ ?_
    · exact fun _ => (readToken_extensible (soundMark .closeParen) _).map
    · exact fun stop inner => ⟨_, rfl⟩
    · exact (readToken_resumable (soundMark .closeParen) (by decide)).andThen resumable_value
  exact (behind.behind [opening] fun stop more =>
    readPrimary_group stop isOpen (rest ++ more)).imp fun _ _ => trivial

theorem number_extensible {token : Token} (isNumber : token.kind = .number) (rest : List Token) :
    FormulaExtensible 0 (token :: rest) := by
  cases read : Text.toInt64? token.value with
  | none =>
      refine .of_error ⟨token, .integerRange⟩ List.mem_cons_self fun stop more => ?_
      simp only [List.cons_append, readPrimary_number stop isNumber, read]
  | some value =>
      refine .of_ok (.number token.span value) rest (follows_endOfFile 0)
        (fun _ member => List.mem_cons_of_mem token member) fun stop more _ => ?_
      simp only [List.cons_append, readPrimary_number stop isNumber, read]

theorem string_extensible {token : Token} (isString : token.kind = .string) (rest : List Token) :
    FormulaExtensible 0 (token :: rest) := by
  refine .of_ok (.string token.span token.value) rest (follows_endOfFile 0)
    (fun _ member => List.mem_cons_of_mem token member) fun stop more _ => ?_
  simp only [List.cons_append, readPrimary_string stop isString]

/-- A name at the end is a reference unless a parenthesis follows. -/
theorem reference_extensible {token : Token} {rest : List Token} (isName : token.kind = .name)
    (open? : ∀ next ∈ rest.head?, next.kind ≠ .mark .openParen) :
    FormulaExtensible 0 (token :: rest) := by
  refine .of_ok (.reference token.span token.value) rest (follows_endOfFile 0)
    (fun _ member => List.mem_cons_of_mem token member) fun stop more follows => ?_
  apply readPrimary_reference stop isName
  intro next member
  cases rest with
  | cons other others => exact open? next member
  | nil =>
      cases more with
      | nil => contradiction
      | cons other others =>
          obtain rfl : other = next := by simpa using member
          exact fun opens => (follows rfl).1 (Token.terminal_of_mark opens)

theorem call_extensible {token opening : Token} {rest : List Token} (isName : token.kind = .name)
    (isOpen : opening.kind = .mark .openParen)
    (arguments : Extensible Anything readArguments rest) :
    FormulaExtensible 0 (token :: opening :: rest) := by
  have behind : Extensible Anything (fun stop behind =>
      (readArguments stop behind).andThen fun read rest =>
        .ok (Node.call (token.span.cover read.2.span) token.value read.1, rest)) rest :=
    arguments.map
  exact (behind.behind [token, opening] fun stop more =>
    readPrimary_call stop isName isOpen (rest ++ more)).imp fun _ _ => trivial

theorem primary_extensible (tokens : List Token)
    (shorter : ∀ shorter : List Token, shorter.length < tokens.length →
      FormulaExtensible loosest shorter ∧ Extensible Anything readArguments shorter) :
    FormulaExtensible 0 tokens := by
  cases tokens with
  | nil =>
      exact .of_end (readFormula_nil · 0) ⟨[zero], by simpa using sound_zero, readPrimary_completes⟩
  | cons token rest =>
      by_cases starts : token.kind ∈ formulaStarts
      · simp only [formulaStarts, List.mem_cons, List.not_mem_nil, or_false] at starts
        rcases starts with isNumber | isString | isName | isOpen
        · exact number_extensible isNumber rest
        · exact string_extensible isString rest
        · cases rest with
          | nil => exact reference_extensible isName (by simp)
          | cons next others =>
              by_cases isOpen : next.kind = .mark .openParen
              · exact call_extensible isName isOpen (shorter others (by simp only [List.length_cons]; omega)).2
              · exact reference_extensible isName (by simpa using isOpen)
        · exact group_extensible isOpen (shorter rest (by simp)).1
      · refine .of_error ⟨token, .expected formulaStarts⟩ List.mem_cons_self fun stop more => ?_
        exact readPrimary_refused stop starts (rest ++ more)

theorem level_extensible (level : Nat) (tokens : List Token)
    (below : FormulaExtensible level tokens)
    (chain : ∀ shorter : List Token, shorter.length < tokens.length → ChainExtensible level shorter) :
    FormulaExtensible (level + 1) tokens := by
  have sequence : Extensible (Follows (level + 1)) (fun stop behind =>
      (readFormula stop level behind).andThen fun left rest => readChain stop level left rest)
      tokens := by
    refine Extensible.andThen_optional below ?_ (follows_endOfFile _) ?_ ?_
    · exact fun read => chain _ (Answer.of_eq_ok read) _
    · exact fun left stop more follows => ⟨_, readChain_ends stop left follows⟩
    · exact fun _ follows => follows.mono (Nat.le_succ level)
  exact sequence.behind [] fun stop more => readFormula_succ stop level (tokens ++ more)

theorem chain_extensible (level : Nat) (tokens : List Token)
    (shorter : ∀ shorter : List Token, shorter.length < tokens.length →
      FormulaExtensible level shorter ∧ ChainExtensible level shorter) :
    ChainExtensible level tokens := by
  intro left
  cases tokens with
  | nil =>
      refine .of_ok left [] (follows_endOfFile _) (by simp) fun stop more follows => ?_
      exact readChain_ends stop left (follows rfl)
  | cons token rest =>
      cases binds : operator? level token.kind with
      | none =>
          refine .of_ok left (token :: rest) (follows_endOfFile _) (fun _ member => member)
            fun stop more _ => ?_
          simp only [List.cons_append, readChain_cons, binds]
      | some operator =>
          have sequence : Extensible (Follows (level + 1)) (fun stop behind =>
              (readFormula stop level behind).andThen fun right rest =>
                readChain stop level (joined operator left right) rest) rest := by
            refine Extensible.andThen_optional (shorter rest (by simp)).1 ?_ (follows_endOfFile _) ?_ ?_
            · intro stop right others read
              have fewer : others.length < rest.length := Answer.of_eq_ok read
              exact (shorter others (by simp only [List.length_cons]; omega)).2 _
            · exact fun right stop more follows => ⟨_, readChain_ends stop _ follows⟩
            · exact fun _ follows => follows.mono (Nat.le_succ level)
          refine sequence.behind [token] fun stop more => ?_
          simp only [List.cons_append, List.nil_append, readChain_cons, binds]

theorem readValuesAfter_completes (value : Node) :
    Completes Anything (fun stop => readValuesAfter stop value) [.mark .closeParen] := by
  refine .of_token fun stop token more same _ => ⟨([value], token), ?_⟩
  have closes : token.kind = .mark .closeParen := Token.kind_of_terminal same
  simp [readValuesAfter, closes]

theorem valuesAfter_extensible (value : Node) (tokens : List Token)
    (shorter : ∀ shorter : List Token, shorter.length < tokens.length →
      Extensible Anything readValues shorter) :
    Extensible Anything (fun stop => readValuesAfter stop value) tokens := by
  cases tokens with
  | nil =>
      exact .of_end (fun _ => rfl) ⟨_, by simpa using soundMark .closeParen, readValuesAfter_completes value⟩
  | cons token rest =>
      by_cases isComma : token.kind = .mark .comma
      · have behind : Extensible Anything (fun stop behind =>
            (readValues stop behind).andThen fun read rest =>
              .ok ((value :: read.1, read.2), rest)) rest := (shorter rest (by simp)).map
        refine behind.behind [token] fun stop more => ?_
        simp only [List.cons_append, List.nil_append, readValuesAfter, if_pos isComma]
      · by_cases closes : token.kind = .mark .closeParen
        · refine .of_ok ([value], token) rest trivial
            (fun _ member => List.mem_cons_of_mem token member) fun stop more _ => ?_
          simp only [List.cons_append, readValuesAfter, if_neg isComma, if_pos closes]
        · refine .of_error ⟨token, .expected [.mark .comma, .mark .closeParen]⟩ List.mem_cons_self
            fun stop more => ?_
          simp only [List.cons_append, readValuesAfter, if_neg isComma, if_neg closes]

theorem values_extensible (tokens : List Token) (formula : FormulaExtensible loosest tokens)
    (shorter : ∀ shorter : List Token, shorter.length < tokens.length →
      Extensible Anything readValues shorter) : Extensible Anything readValues tokens := by
  have sequence : Extensible Anything (fun stop behind =>
      (readFormula stop loosest behind).andThen fun value rest => readValuesAfter stop value rest)
      tokens := by
    refine Extensible.andThen_required formula ?_ ?_ ?_
    · intro stop value rest read
      have fewer : rest.length < tokens.length := Answer.of_eq_ok read
      exact valuesAfter_extensible value rest fun others less => shorter others (by omega)
    · exact fun stop value => ⟨_, rfl⟩
    · exact ⟨[.mark .closeParen], by simpa using soundMark .closeParen,
        fun _ _ => (by decide : Follows loosest (.mark .closeParen)), readValuesAfter_completes⟩
  exact sequence.behind [] fun stop more => readValues_eq stop (tokens ++ more)

theorem arguments_extensible (tokens : List Token) (values : Extensible Anything readValues tokens) :
    Extensible Anything readArguments tokens := by
  cases tokens with
  | nil =>
      refine .of_end readArguments_nil ⟨[.mark .closeParen], by simpa using soundMark .closeParen, ?_⟩
      refine .of_token fun stop token more same _ => ⟨([], token), ?_⟩
      have closes : token.kind = .mark .closeParen := Token.kind_of_terminal same
      simp [readArguments_cons, closes]
  | cons token rest =>
      by_cases closes : token.kind = .mark .closeParen
      · refine .of_ok ([], token) rest trivial
          (fun _ member => List.mem_cons_of_mem token member) fun stop more _ => ?_
        simp only [List.cons_append, readArguments_cons, if_pos closes]
      · refine values.behind [] fun stop more => ?_
        simp only [List.nil_append, List.cons_append, readArguments_cons, if_neg closes]

theorem formula_extensible (tokens : List Token) : FormulaExtensible loosest tokens :=
  (formulas_induction primary_extensible level_extensible chain_extensible values_extensible
    arguments_extensible tokens).1 loosest

end Formulas

end Parlance.Grammar
