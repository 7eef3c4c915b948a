import Mathlib.Data.List.Nodup
import Parlance.Proofs.Grammar.Coverage
import Parlance.Proofs.Parts
import Parlance.Proofs.Scanning.Order
import Parlance.Proofs.Scanning.Positions

namespace Parlance

open Grammar

/-!
Where names and strings stand. A reference and a call start at the token of their
name, and the readers take every token once, so no two of them start at the same
place. A string is a token too, and so a piece of the source between two quotes.
-/

theorem Node.partsOfAll_append (nodes others : List Node) :
    Node.partsOfAll (nodes ++ others) = Node.partsOfAll nodes ++ Node.partsOfAll others := by
  induction nodes with
  | nil => rfl
  | cons node nodes inductionHypothesis =>
      rw [List.cons_append, Node.partsOfAll, Node.partsOfAll, inductionHypothesis,
        List.append_assoc]

theorem Node.partsOfAll_singleton (node : Node) : Node.partsOfAll [node] = node.parts :=
  List.append_nil _

/-- The node keeps the text of a token. -/
def Node.isSpelled : Node → Bool
  | .string .. | .reference .. | .call .. => true
  | _ => false

/-- What has to be shown of tokens and the parts of the nodes that are read off them: a text is
taken from a token of its own, and other nodes may come and go. -/
structure Gathers (holds : List Token → List Node → Prop) : Prop where
  nothing : holds [] []
  append {taken taken' : List Token} {nodes others : List Node} :
    holds taken nodes → holds taken' others → holds (taken ++ taken') (nodes ++ others)
  token (token : Token) : holds [token] []
  string (token : Token) : holds [token] [.string token.span token.value]
  reference (token : Token) : holds [token] [.reference token.span token.value]
  call (token closing : Token) (values : List Node) :
    holds [token] [.call (token.span.cover closing.span) token.value values]
  composed {node : Node} : node.isSpelled = false → holds [] [node]
  fewer {taken : List Token} {nodes others : List Node} :
    others.Sublist nodes → holds taken nodes → holds taken others

namespace Gathers

variable {holds : List Token → List Node → Prop} (gathers : Gathers holds)

/-- The tokens in front of `rest` hold the nodes. -/
def Front (holds : List Token → List Node → Prop) (tokens rest : List Token) (nodes : List Node) :
    Prop :=
  ∃ taken, tokens = taken ++ rest ∧ holds taken nodes

variable {tokens middle rest : List Token} {token : Token} {node : Node} {nodes others : List Node}

theorem Front.fewer (gathers : Gathers holds) (front : Front holds tokens rest nodes)
    (fewer : others.Sublist nodes) : Front holds tokens rest others := by
  obtain ⟨taken, whole, within⟩ := front
  exact ⟨taken, whole, gathers.fewer fewer within⟩

include gathers

theorem front_append (first : Front holds tokens middle nodes)
    (second : Front holds middle rest others) : Front holds tokens rest (nodes ++ others) := by
  obtain ⟨taken, rfl, within⟩ := first
  obtain ⟨taken', rfl, within'⟩ := second
  exact ⟨taken ++ taken', (List.append_assoc ..).symm, gathers.append within within'⟩

theorem front_skip (token : Token) (front : Front holds tokens rest nodes) :
    Front holds (token :: tokens) rest nodes :=
  gathers.front_append ⟨[token], rfl, gathers.token token⟩ front

theorem front_skipBehind (front : Front holds tokens (token :: rest) nodes) :
    Front holds tokens rest nodes := by
  have behind : Front holds (token :: rest) rest [] := ⟨[token], rfl, gathers.token token⟩
  simpa using gathers.front_append front behind

theorem front_composed (isComposed : node.isSpelled = false)
    (front : Front holds tokens rest nodes) : Front holds tokens rest (node :: nodes) :=
  gathers.front_append ⟨[], rfl, gathers.composed isComposed⟩ front

/-- The readers take a token for each text. -/
theorem coverage :
    Coverage fun tokens rest nodes => Front holds tokens rest (Node.partsOfAll nodes) where
  nothing _ := ⟨[], rfl, gathers.nothing⟩
  append first second := by
    rw [Node.partsOfAll_append]
    exact gathers.front_append first second
  skip token _ _ _ front := gathers.front_skip token front
  number token _ _ := gathers.front_composed rfl ⟨[token], rfl, gathers.token token⟩
  string token _ := ⟨[token], rfl, gathers.string token⟩
  reference token _ := ⟨[token], rfl, gathers.reference token⟩
  call token closing _ _ values front := by
    rw [Node.partsOfAll_singleton, Node.parts]
    exact gathers.front_append ⟨[token], rfl, gathers.call token closing values⟩
      (gathers.front_skipBehind front)
  binary _ _ _ _ _ front := by
    rw [Node.partsOfAll, Node.partsOfAll_singleton] at front
    rw [Node.partsOfAll_singleton, joined, Node.parts]
    exact gathers.front_composed rfl front
  print token _ _ _ front := by
    rw [Node.partsOfAll_singleton] at front ⊢
    rw [Node.parts]
    exact gathers.front_composed rfl (gathers.front_skip token front)
  giveBack token _ _ _ front := by
    rw [Node.partsOfAll_singleton] at front ⊢
    rw [Node.parts]
    exact gathers.front_composed rfl (gathers.front_skip token front)
  block token _ _ _ _ front := by
    rw [Node.partsOfAll_singleton, Node.parts, Block.parts]
    exact gathers.front_composed rfl (gathers.front_skip token (gathers.front_skipBehind front))
  declaration token _ _ _ _ body front := by
    rw [Node.partsOfAll_singleton, Node.parts] at front
    rw [Node.partsOfAll_singleton, Node.parts]
    -- The body is no node of its own any more.
    have inside := front.fewer gathers (List.sublist_cons_self ..)
    exact gathers.front_composed rfl (gathers.front_skip token inside)
  conditional token alternative _ _ condition body front := by
    have fewer : (condition.parts ++ (body.parts ++ Node.partsOfOption alternative)).Sublist
        (Node.partsOfAll (condition :: .block body :: alternative.toList)) := by
      have same : Node.partsOfAll alternative.toList = Node.partsOfOption alternative := by
        cases alternative with
        | none => rfl
        | some node => exact Node.partsOfAll_singleton node
      rw [Node.partsOfAll, Node.partsOfAll, Node.parts, same]
      exact (List.Sublist.refl _).append (List.sublist_cons_self ..)
    rw [Node.partsOfAll_singleton, Node.parts]
    exact gathers.front_composed rfl (gathers.front_skip token (front.fewer gathers fewer))

theorem front_of_parse {file source : Text} {program : Program}
    (accepted : parse file source = .ok program) :
    ∃ tokens taken, tokenize file source = .ok tokens ∧ taken.Sublist tokens ∧
      holds taken program.parts := by
  obtain ⟨tokens, scanned, parsed⟩ := parse_eq_ok_iff.mp accepted
  obtain ⟨nodes, span, read, rfl⟩ := readProgram_of_parseTokens parsed
  obtain ⟨taken, whole, within⟩ := gathers.coverage.program_covered read
  rw [List.append_nil] at whole
  refine ⟨tokens, taken, scanned, ?_, within⟩
  rw [← whole]
  exact List.takeWhile_sublist _

end Gathers

/-- The node starts with a name of its own. -/
def Node.isMention : Node → Bool
  | .reference .. | .call .. => true
  | _ => false

/-- The places at which references and calls start. -/
def Node.places (nodes : List Node) : List Position :=
  (nodes.filter Node.isMention).map (·.span.start)

theorem places_gathers : Gathers fun taken nodes =>
    (Node.places nodes).Sublist (taken.map (·.span.start)) where
  nothing := .slnil
  append within within' := by
    rw [Node.places, List.filter_append, List.map_append, List.map_append]
    exact within.append within'
  token _ := List.nil_sublist _
  string _ := List.nil_sublist _
  reference _ := List.Sublist.refl _
  call _ _ _ := List.Sublist.refl _
  composed {node} isComposed := by
    cases node <;> first | exact List.nil_sublist _ | contradiction
  fewer fewer within := ((fewer.filter _).map _).trans within

theorem ordered_places_of_parse {file source : Text} {program : Program}
    (accepted : parse file source = .ok program) :
    (Node.places program.parts).Pairwise Position.Before := by
  obtain ⟨tokens, taken, scanned, front, within⟩ := places_gathers.front_of_parse accepted
  exact (ordered_starts_of_tokenize scanned).sublist (within.trans (front.map _))

theorem nodup_places_of_parse {file source : Text} {program : Program}
    (accepted : parse file source = .ok program) : (Node.places program.parts).Nodup :=
  (ordered_places_of_parse accepted).imp Position.Before.ne

/-- A reference or call of a program is told by its span. -/
theorem eq_of_span_eq {file source : Text} {program : Program}
    (accepted : parse file source = .ok program) {node other : Node}
    (member : node ∈ program.parts) (member' : other ∈ program.parts)
    (isMention : node.isMention = true) (isMention' : other.isMention = true)
    (same : node.span = other.span) : node = other := by
  have distinct := nodup_places_of_parse accepted
  exact List.inj_on_of_nodup_map distinct (List.mem_filter.mpr ⟨member, isMention⟩)
    (List.mem_filter.mpr ⟨member', isMention'⟩) (congrArg Span.start same)

theorem strings_gathers : Gathers fun taken nodes => ∀ span raw, .string span raw ∈ nodes →
    ∃ token ∈ taken, token.span = span ∧ token.value = raw where
  nothing _ _ member := absurd member List.not_mem_nil
  append within within' span raw member := by
    rcases List.mem_append.mp member with inside | inside
    · obtain ⟨token, present, same⟩ := within span raw inside
      exact ⟨token, List.mem_append_left _ present, same⟩
    · obtain ⟨token, present, same⟩ := within' span raw inside
      exact ⟨token, List.mem_append_right _ present, same⟩
  token _ _ _ member := absurd member List.not_mem_nil
  string token _ _ member := by
    cases List.mem_singleton.mp member
    exact ⟨token, List.mem_singleton_self token, rfl, rfl⟩
  reference _ _ _ member := by cases List.mem_singleton.mp member
  call _ _ _ _ _ member := by cases List.mem_singleton.mp member
  composed isComposed _ _ member := by
    cases List.mem_singleton.mp member
    contradiction
  fewer fewer within span raw member := within span raw (fewer.subset member)

/-- A string is the piece of the source from its opening quote to its closing one, and there is
no other quote and no newline in between. -/
theorem string_of_parse {file source : Text} {program : Program}
    (accepted : parse file source = .ok program) {span : Span} {raw : Text}
    (member : .string span raw ∈ program.parts) :
    ∃ front text behind, raw = Text.quoted text ∧ source = front ++ Text.quoted text ++ behind ∧
      span = ⟨file, .after front, .after (front ++ Text.quoted text)⟩ ∧
      Text.quote ∉ text ∧ Text.newline ∉ text := by
  have isPart := Program.isPart_of_mem_parts (wellFormed_of_parse accepted) _ member
  obtain ⟨text, rfl, inLine⟩ : Text.IsRawString raw := isPart.isFormula rfl
  obtain ⟨tokens, taken, scanned, within, spelled⟩ := strings_gathers.front_of_parse accepted
  obtain ⟨token, present, rfl, sameValue⟩ := spelled span _ member
  obtain ⟨front, behind, whole, _, place⟩ :=
    Scanner.scan_stands scanned [] rfl rfl token (within.subset present)
  rw [sameValue] at whole place
  refine ⟨front, text, behind, rfl, whole, place, fun quote => ?_, fun newline => ?_⟩
  · exact absurd (inLine _ quote) (by decide)
  · exact absurd (inLine _ newline) (by decide)

end Parlance
