import Parlance.Proofs.Grammar.Coverage
import Parlance.Proofs.Grammar.FirstFault
import Parlance.Proofs.Scanning.Order
import Parlance.Proofs.Source

namespace Parlance

open Grammar

/-!
The spans of a tree. A node reaches from the start of a token to the end of one and
encloses the nodes below it, which stand one behind the other like their tokens. Each of
them leaves out a token of the node or ends in front of its last one, so no two nodes
have the same span.
-/

namespace Node

/-- The nodes right below a node, in the order of the source text. A body is a block. -/
def children : Node → List Node
  | .number .. | .string .. | .reference .. => []
  | .call _ _ arguments => arguments
  | .unary _ _ operand => [operand]
  | .binary _ _ left right => [left, right]
  | .block body => body.statements
  | .conditional _ condition body alternative =>
    condition :: ((body.map block).toList ++ alternative.toList)
  | .declaration _ _ _ body => (body.map block).toList
  | .giveBack _ value => [value]
  | .program _ body => (body.map block).toList

theorem sizeOf_child {node child : Node} (member : child ∈ node.children) :
    sizeOf child < sizeOf node := by
  cases node with
  | number | string | reference => contradiction
  | call span name arguments =>
      have smaller : sizeOf child < sizeOf arguments := List.sizeOf_lt_of_mem member
      simp only [call.sizeOf_spec]
      omega
  | block body =>
      obtain ⟨span, statements⟩ := body
      have smaller : sizeOf child < sizeOf statements := List.sizeOf_lt_of_mem member
      simp only [block.sizeOf_spec, Block.mk.sizeOf_spec]
      omega
  | unary span operator operand =>
      cases List.mem_singleton.mp member
      simp only [unary.sizeOf_spec]
      omega
  | binary span operator left right =>
      simp only [children, List.mem_cons, List.not_mem_nil, or_false] at member
      simp only [binary.sizeOf_spec]
      rcases member with rfl | rfl <;> omega
  | conditional span condition body alternative =>
      simp only [children, List.mem_cons, List.mem_append, Option.mem_toList,
        Option.map_eq_some_iff] at member
      rcases member with rfl | ⟨inner, rfl, rfl⟩ | rfl <;>
        simp only [conditional.sizeOf_spec, block.sizeOf_spec, Option.some.sizeOf_spec] <;> omega
  | declaration span name parameters body =>
      simp only [children, Option.mem_toList, Option.map_eq_some_iff] at member
      obtain ⟨inner, rfl, rfl⟩ := member
      simp only [declaration.sizeOf_spec, block.sizeOf_spec, Option.some.sizeOf_spec]
      omega
  | giveBack span value =>
      cases List.mem_singleton.mp member
      simp only [giveBack.sizeOf_spec]
      omega
  | program span body =>
      simp only [children, Option.mem_toList, Option.map_eq_some_iff] at member
      obtain ⟨inner, rfl, rfl⟩ := member
      simp only [program.sizeOf_spec, block.sizeOf_spec, Option.some.sizeOf_spec]
      omega

/-- A node and all below it, each in front of what is below it. -/
def subtrees (node : Node) : List Node :=
  node :: node.children.attach.flatMap fun child => child.1.subtrees
termination_by sizeOf node
decreasing_by exact sizeOf_child child.2

theorem subtrees_eq (node : Node) : node.subtrees = node :: node.children.flatMap subtrees := by
  rw [subtrees]
  simp

theorem mem_subtrees (node : Node) : node ∈ node.subtrees := by
  rw [subtrees_eq]
  exact .head _

theorem subtrees_subset {node : Node} {nodes : List Node} (member : node ∈ nodes) :
    node.subtrees ⊆ nodes.flatMap subtrees :=
  fun _ inside => List.mem_flatMap.mpr ⟨node, member, inside⟩

end Node

namespace Span

def Within (inner outer : Span) : Prop :=
  outer.start.Until inner.start ∧ inner.stop.Until outer.stop

/-- The span reaches from the start of one of the tokens to the end of one. -/
def Joins (span : Span) (tokens : List Token) : Prop :=
  (∃ first ∈ tokens, span.start = first.span.start) ∧ ∃ last ∈ tokens, span.stop = last.span.stop

/-- Where a span starts and ends, in whatever file. -/
def ends (span : Span) : Position × Position :=
  (span.start, span.stop)

theorem Within.refl (span : Span) : span.Within span :=
  ⟨.inl rfl, .inl rfl⟩

theorem Within.trans {inner middle outer : Span} (within : inner.Within middle)
    (within' : middle.Within outer) : inner.Within outer :=
  ⟨within'.1.trans within.1, within.2.trans within'.2⟩

/-- What lies between two spans of the same ends has these ends. -/
theorem Within.ends_eq {inner middle outer : Span} (within : inner.Within middle)
    (within' : middle.Within outer) (same : inner.ends = outer.ends) : middle.ends = outer.ends := by
  obtain ⟨sameStart, sameStop⟩ := Prod.mk.inj same
  have starts : middle.start = outer.start :=
    (sameStart ▸ within.1 : middle.start.Until outer.start).antisymm within'.1
  have stops : middle.stop = outer.stop :=
    within'.2.antisymm (sameStop ▸ within.2 : outer.stop.Until middle.stop)
  exact Prod.ext starts stops

theorem Joins.mono {span : Span} {tokens others : List Token} (joins : span.Joins tokens)
    (subset : tokens ⊆ others) : span.Joins others := by
  obtain ⟨⟨first, inFirst, starts⟩, last, inLast, stops⟩ := joins
  exact ⟨⟨first, subset inFirst, starts⟩, last, subset inLast, stops⟩

theorem Precedes.stops {first second : Span} (precedes : first.Precedes second)
    (wide : second.start.Before second.stop) : first.stop.Before second.stop :=
  precedes.2.trans_before wide

/-- Spans inside of two that stand apart do not start at the same place. -/
theorem Precedes.ends_ne {first second inner other : Span} (precedes : first.Precedes second)
    (within : inner.Within first) (within' : other.Within second)
    (wide : inner.start.Before inner.stop) : inner.ends ≠ other.ends := by
  have reaches : inner.stop.Until other.start :=
    (within.2.trans precedes.2).trans within'.1
  exact fun same => (wide.trans_until reaches).ne (congrArg Prod.fst same)

end Span

/-- The nodes stand one behind the other. -/
def Node.InOrder (nodes : List Node) : Prop :=
  nodes.Pairwise fun first second => first.span.Precedes second.span

/-- The children lie inside of the node, one behind the other. -/
structure Node.Encloses (node : Node) : Prop where
  within : ∀ child ∈ node.children, child.span.Within node.span
  inOrder : Node.InOrder node.children

/-- Moreover, the node takes some room, and each child leaves some of it. -/
structure Node.Tidy (node : Node) : Prop extends node.Encloses where
  wide : node.span.start.Before node.span.stop
  proper : ∀ child ∈ node.children, child.span.ends ≠ node.span.ends

theorem Node.within_of_tidy (node : Node) (tidy : ∀ part ∈ node.subtrees, part.Tidy) :
    ∀ part ∈ node.subtrees, part.span.Within node.span := by
  induction node using Node.subtrees.induct with
  | case1 node inductionHypothesis =>
      rw [Node.subtrees_eq] at tidy ⊢
      obtain ⟨self, below⟩ := List.forall_mem_cons.mp tidy
      refine List.forall_mem_cons.mpr ⟨.refl _, fun part member => ?_⟩
      obtain ⟨child, isChild, inside⟩ := List.mem_flatMap.mp member
      have tidyChild : ∀ part ∈ child.subtrees, part.Tidy := fun part inside =>
        below part (Node.subtrees_subset isChild inside)
      exact (inductionHypothesis ⟨child, isChild⟩ tidyChild part inside).trans
        (self.within child isChild)

def Node.Apart (nodes : List Node) : Prop :=
  nodes.Pairwise fun first second => first.span.ends ≠ second.span.ends

theorem Node.apart_flatMap {nodes : List Node} (inOrder : Node.InOrder nodes)
    (tidy : ∀ part ∈ nodes.flatMap Node.subtrees, part.Tidy)
    (each : ∀ node ∈ nodes, Node.Apart node.subtrees) : Node.Apart (nodes.flatMap Node.subtrees) := by
  have tidyNode : ∀ node ∈ nodes, ∀ part ∈ node.subtrees, part.Tidy := fun node member part inside =>
    tidy part (Node.subtrees_subset member inside)
  refine List.pairwise_flatMap.mpr ⟨each, inOrder.imp_of_mem ?_⟩
  intro first second inFirst inSecond precedes part inside other inside'
  exact precedes.ends_ne (first.within_of_tidy (tidyNode first inFirst) part inside)
    (second.within_of_tidy (tidyNode second inSecond) other inside')
    (tidyNode first inFirst part inside).wide

theorem Node.apart_subtrees (node : Node) (tidy : ∀ part ∈ node.subtrees, part.Tidy) :
    Node.Apart node.subtrees := by
  induction node using Node.subtrees.induct with
  | case1 node inductionHypothesis =>
      rw [Node.subtrees_eq] at tidy ⊢
      obtain ⟨self, below⟩ := List.forall_mem_cons.mp tidy
      have tidyChild : ∀ child ∈ node.children, ∀ part ∈ child.subtrees, part.Tidy :=
        fun child isChild part inside => below part (Node.subtrees_subset isChild inside)
      refine List.pairwise_cons.mpr ⟨fun part member same => ?_, ?_⟩
      · obtain ⟨child, isChild, inside⟩ := List.mem_flatMap.mp member
        have within := child.within_of_tidy (tidyChild child isChild) part inside
        exact self.proper child isChild (within.ends_eq (self.within child isChild) same.symm)
      · exact Node.apart_flatMap self.inOrder below fun child isChild =>
          inductionHypothesis ⟨child, isChild⟩ (tidyChild child isChild)

/-- Tokens that take some room each, one behind the other. -/
structure Sequential (tokens : List Token) : Prop where
  wide : ∀ token ∈ tokens, token.span.start.Before token.span.stop
  inOrder : tokens.Pairwise fun first second => first.span.Precedes second.span

theorem Sequential.sublist {tokens others : List Token} (sequential : Sequential tokens)
    (sublist : others.Sublist tokens) : Sequential others :=
  ⟨fun token member => sequential.wide token (sublist.subset member),
    sequential.inOrder.sublist sublist⟩

/-- Trees that stand one behind the other and join tokens only. -/
structure Spread (tokens : List Token) (nodes : List Node) : Prop where
  inOrder : Node.InOrder nodes
  tidy : ∀ part ∈ nodes.flatMap Node.subtrees, part.Tidy
  joins : ∀ part ∈ nodes.flatMap Node.subtrees, part.span.Joins tokens

namespace Spread

variable {tokens others : List Token} {token closing : Token} {node last : Node}
  {nodes more : List Node}

theorem self (spread : Spread tokens nodes) (member : node ∈ nodes) :
    node.Tidy ∧ node.span.Joins tokens :=
  have inside := Node.subtrees_subset member node.mem_subtrees
  ⟨spread.tidy node inside, spread.joins node inside⟩

theorem apart (spread : Spread tokens nodes) : Node.Apart (nodes.flatMap Node.subtrees) := by
  refine Node.apart_flatMap spread.inOrder spread.tidy fun node member => ?_
  exact node.apart_subtrees fun part inside => spread.tidy part (Node.subtrees_subset member inside)

theorem mono (spread : Spread tokens nodes) (subset : tokens ⊆ others) : Spread others nodes :=
  ⟨spread.inOrder, spread.tidy, fun part inside => (spread.joins part inside).mono subset⟩

theorem append (sequential : Sequential (tokens ++ others)) (first : Spread tokens nodes)
    (second : Spread others more) : Spread (tokens ++ others) (nodes ++ more) := by
  have first' := first.mono (List.subset_append_left tokens others)
  have second' := second.mono (List.subset_append_right tokens others)
  refine ⟨List.pairwise_append.mpr ⟨first.inOrder, second.inOrder, ?_⟩, ?_, ?_⟩
  · intro node member other member'
    obtain ⟨tidy, _, last, inFront, stops⟩ := first.self member
    obtain ⟨_, ⟨opening, inBack, starts⟩, _⟩ := second.self member'
    have precedes := (List.pairwise_append.mp sequential.inOrder).2.2 last inFront opening inBack
    refine ⟨tidy.wide, ?_⟩
    rw [stops, starts]
    exact precedes.2
  · rw [List.flatMap_append]
    exact List.forall_mem_append.mpr ⟨first.tidy, second.tidy⟩
  · rw [List.flatMap_append]
    exact List.forall_mem_append.mpr ⟨first'.joins, second'.joins⟩

theorem above (inner : Spread tokens node.children) (tidy : node.Tidy)
    (joins : node.span.Joins tokens) : Spread tokens [node] := by
  refine ⟨List.pairwise_singleton _ _, ?_, ?_⟩
  all_goals rw [List.flatMap_singleton, Node.subtrees_eq]
  · exact List.forall_mem_cons.mpr ⟨tidy, inner.tidy⟩
  · exact List.forall_mem_cons.mpr ⟨joins, inner.joins⟩

/-- A node that starts with a token of its own. -/
theorem lead (sequential : Sequential (token :: tokens)) (inner : Spread tokens node.children)
    (starts : node.span.start = token.span.start)
    (stops : ∃ last ∈ token :: tokens, node.span.stop = last.span.stop)
    (reached : ∀ child ∈ node.children, child.span.stop.Until node.span.stop) :
    Spread (token :: tokens) [node] := by
  obtain ⟨ahead, _⟩ := List.pairwise_cons.mp sequential.inOrder
  have wide := sequential.wide token (.head _)
  have behind : ∀ child ∈ node.children, node.span.start.Before child.span.start := by
    intro child member
    obtain ⟨_, ⟨first, inside, starts'⟩, _⟩ := inner.self member
    rw [starts, starts']
    exact (ahead first inside).starts
  refine (inner.mono (List.subset_cons_self _ _)).above ⟨⟨?_, inner.inOrder⟩, ?_, ?_⟩
    ⟨⟨token, .head _, starts⟩, stops⟩
  · exact fun child member => ⟨.inr (behind child member), reached child member⟩
  · obtain ⟨last, inside, stops⟩ := stops
    rw [starts, stops]
    rcases List.mem_cons.mp inside with rfl | inside
    · exact wide
    · exact wide.trans ((ahead last inside).stops (sequential.wide last (.tail _ inside)))
  · exact fun child member same => (behind child member).ne (congrArg Prod.fst same).symm

/-- Trees one behind the other end where the last one ends, or before. -/
theorem reached (spread : Spread tokens (nodes ++ [last])) :
    ∀ node ∈ nodes ++ [last], node.span.stop.Until last.span.stop := by
  obtain ⟨tidy, _⟩ := spread.self (List.mem_concat_self)
  obtain ⟨_, _, ahead⟩ := List.pairwise_append.mp spread.inOrder
  refine List.forall_mem_append.mpr ⟨fun node member => ?_, List.forall_mem_singleton.mpr (.inl rfl)⟩
  exact .inr ((ahead node member last (.head _)).stops tidy.wide)

/-- A node that reaches from one node to another that stands behind it. -/
theorem join {left right : Node} (inner : Spread tokens [left, right])
    (below : node.children = [left, right]) (starts : node.span.start = left.span.start)
    (stops : node.span.stop = right.span.stop) : Spread tokens [node] := by
  obtain ⟨tidyLeft, ⟨first, inFirst, starts'⟩, _⟩ := inner.self (.head _ : left ∈ [left, right])
  obtain ⟨tidyRight, _, last, inLast, stops'⟩ :=
    inner.self (.tail _ (.head _) : right ∈ [left, right])
  have precedes : left.span.Precedes right.span :=
    (List.pairwise_cons.mp inner.inOrder).1 right (.head _)
  have stopsLater : left.span.stop.Before node.span.stop := stops ▸ precedes.stops tidyRight.wide
  have startsEarlier : node.span.start.Before right.span.start := starts ▸ precedes.starts
  have forChildren : ∀ property : Node → Prop, property left → property right →
      ∀ child ∈ node.children, property child := by
    intro property ofLeft ofRight
    rw [below]
    exact List.forall_mem_cons.mpr ⟨ofLeft, List.forall_mem_singleton.mpr ofRight⟩
  refine above (below ▸ inner) ⟨⟨?_, below ▸ inner.inOrder⟩, ?_, ?_⟩
    ⟨⟨first, inFirst, starts.trans starts'⟩, last, inLast, stops.trans stops'⟩
  · exact forChildren _ ⟨.inl starts, .inr stopsLater⟩ ⟨.inr startsEarlier, .inl stops.symm⟩
  · exact startsEarlier.trans (stops ▸ tidyRight.wide)
  · exact forChildren _ (fun same => stopsLater.ne (congrArg Prod.snd same))
      fun same => startsEarlier.ne (congrArg Prod.fst same).symm

end Spread

/-- The nodes are spread over the tokens in front of `rest`. -/
def Laid (tokens rest : List Token) (nodes : List Node) : Prop :=
  Sequential tokens → ∃ taken, tokens = taken ++ rest ∧ Spread taken nodes

namespace Laid

variable {tokens middle rest : List Token} {token closing : Token} {node : Node}
  {nodes others : List Node}

theorem nothing (tokens : List Token) : Laid tokens tokens [] :=
  fun _ => ⟨[], rfl, .nil, List.forall_mem_nil _, List.forall_mem_nil _⟩

theorem append (first : Laid tokens middle nodes) (second : Laid middle rest others) :
    Laid tokens rest (nodes ++ others) := by
  intro sequential
  obtain ⟨taken, rfl, spread⟩ := first sequential
  obtain ⟨taken', rfl, spread'⟩ := second (sequential.sublist (List.sublist_append_right ..))
  rw [← List.append_assoc] at sequential ⊢
  exact ⟨taken ++ taken', rfl,
    spread.append (sequential.sublist (List.sublist_append_left ..)) spread'⟩

/-- What is read behind a token, with the tokens that it takes. -/
theorem behind (laid : Laid tokens rest nodes) (sequential : Sequential (token :: tokens)) :
    ∃ taken, token :: tokens = token :: taken ++ rest ∧ Sequential (token :: taken) ∧
      Spread taken nodes := by
  obtain ⟨taken, rfl, spread⟩ := laid (sequential.sublist (List.sublist_cons_self ..))
  exact ⟨taken, rfl, sequential.sublist ((List.sublist_append_left ..).cons_cons _), spread⟩

theorem skip (token : Token) (laid : Laid tokens rest nodes) : Laid (token :: tokens) rest nodes := by
  intro sequential
  obtain ⟨taken, whole, _, spread⟩ := laid.behind sequential
  exact ⟨token :: taken, whole, spread.mono (List.subset_cons_self _ _)⟩

theorem leaf (below : node.children = []) (same : node.span = token.span) :
    Laid (token :: rest) rest [node] := by
  intro sequential
  obtain ⟨taken, whole, sequential', spread⟩ := (nothing rest).behind sequential
  refine ⟨token :: taken, whole, .lead sequential' (below ▸ spread) (congrArg _ same)
    ⟨token, .head _, congrArg _ same⟩ ?_⟩
  rw [below]
  exact List.forall_mem_nil _

/-- A node that ends where its last child ends. -/
theorem lead (nodes : List Node) (last : Node) (laid : Laid tokens rest node.children)
    (below : node.children = nodes ++ [last]) (starts : node.span.start = token.span.start)
    (stops : node.span.stop = last.span.stop) :
    Laid (token :: tokens) rest [node] := by
  intro sequential
  obtain ⟨taken, whole, sequential', spread⟩ := laid.behind sequential
  have reached : ∀ child ∈ node.children, child.span.stop.Until node.span.stop := by
    rw [below] at spread ⊢
    exact stops ▸ spread.reached
  obtain ⟨_, _, final, inside, stops'⟩ := spread.self (below ▸ List.mem_concat_self)
  exact ⟨token :: taken, whole, spread.lead sequential' starts
    ⟨final, .tail _ inside, stops.trans stops'⟩ reached⟩

/-- A node that ends with a token of its own. -/
theorem enclose (laid : Laid tokens (closing :: rest) node.children)
    (starts : node.span.start = token.span.start) (stops : node.span.stop = closing.span.stop) :
    Laid (token :: tokens) rest [node] := by
  intro sequential
  obtain ⟨taken, whole, _, spread⟩ := laid.behind sequential
  have whole' : token :: tokens = token :: (taken ++ [closing]) ++ rest := by simp [whole]
  have sequential' : Sequential (token :: (taken ++ [closing])) :=
    sequential.sublist (whole' ▸ List.sublist_append_left ..)
  have wide := sequential'.wide closing (.tail _ List.mem_concat_self)
  have inOrder := (List.pairwise_cons.mp sequential'.inOrder).2
  refine ⟨token :: (taken ++ [closing]), whole',
    .lead sequential' (spread.mono (List.subset_append_left ..)) starts
      ⟨closing, .tail _ List.mem_concat_self, stops⟩ fun child member => ?_⟩
  obtain ⟨_, _, final, inside, stops'⟩ := spread.self member
  have precedes := (List.pairwise_append.mp inOrder).2.2 final inside closing (.head _)
  rw [stops, stops']
  exact .inr (precedes.stops wide)

theorem join {left right : Node} (laid : Laid tokens rest [left, right])
    (below : node.children = [left, right]) (starts : node.span.start = left.span.start)
    (stops : node.span.stop = right.span.stop) : Laid tokens rest [node] := by
  intro sequential
  obtain ⟨taken, whole, spread⟩ := laid sequential
  exact ⟨taken, whole, spread.join below starts stops⟩

end Laid

/-- The readers spread trees over the tokens that they take. -/
theorem laid_coverage : Coverage Laid where
  nothing := Laid.nothing
  append := Laid.append
  skip token _ _ _ laid := laid.skip token
  number _ _ _ := .leaf rfl rfl
  string _ _ := .leaf rfl rfl
  reference _ _ := .leaf rfl rfl
  call _ _ _ _ _ laid := .enclose laid rfl rfl
  binary _ _ _ _ _ laid := .join laid rfl rfl rfl
  print _ _ _ operand laid := .lead [] operand laid rfl rfl rfl
  giveBack _ _ _ value laid := .lead [] value laid rfl rfl rfl
  block _ _ _ _ _ laid := .enclose laid rfl rfl
  declaration _ _ _ _ _ body laid := .lead [] (.block body) laid rfl rfl rfl
  conditional _ alternative _ _ condition body laid := by
    cases alternative with
    | none => exact .lead [condition] (.block body) laid rfl rfl rfl
    | some alternative => exact .lead [condition, .block body] alternative laid rfl rfl rfl

theorem span_of_parseTokens {file : Text} {tokens : List Token} {program : Program}
    (accepted : parseTokens file tokens = .ok program) :
    program.span.start = ((frontTokens tokens).head?.getD (endToken file tokens)).span.start ∧
      program.span.stop = (endToken file tokens).span.stop := by
  unfold parseTokens at accepted
  dsimp only at accepted
  cases read : topLevel (endToken file tokens) (frontTokens tokens) with
  | error error =>
      rw [← frontTokens, read] at accepted
      contradiction
  | ok nodes =>
      rw [← frontTokens, read] at accepted
      cases accepted
      refine ⟨?_, rfl⟩
      dsimp only [Span.cover]
      split <;> rfl

/-- A program as the root of its tree. -/
def Program.root (program : Program) : Node :=
  .program program.span program.body

theorem Program.subtrees_root (span : Span) (nodes : List Node) :
    (Program.root ⟨span, some (.mk span nodes)⟩).subtrees =
      Program.root ⟨span, some (.mk span nodes)⟩ ::
        .block (.mk span nodes) :: nodes.flatMap Node.subtrees := by
  rw [Node.subtrees_eq]
  exact congrArg _ ((List.flatMap_singleton ..).trans (Node.subtrees_eq _))

section Ended

variable {front : List Token} {stop : Token}
  (inOrder : (front ++ [stop]).Pairwise fun first second => first.span.Precedes second.span)
include inOrder

theorem sequential_front : Sequential front := by
  obtain ⟨inFront, _, ahead⟩ := List.pairwise_append.mp inOrder
  exact ⟨fun token member => (ahead token member stop (.head _)).1, inFront⟩

theorem until_start {token : Token} (member : token ∈ front ++ [stop]) :
    (front.head?.getD stop).span.start.Until token.span.start := by
  cases front with
  | nil =>
      cases List.mem_singleton.mp member
      exact .inl rfl
  | cons first others =>
      rcases List.mem_cons.mp member with rfl | member
      · exact .inl rfl
      · exact .inr ((List.pairwise_cons.mp inOrder).1 token member).starts

/-- The span from the first token to the end of file has all the trees in it. -/
theorem Spread.within {nodes : List Node} {span : Span} (spread : Spread front nodes)
    (starts : span.start = (front.head?.getD stop).span.start) (stops : span.stop = stop.span.stop)
    (forward : stop.span.start.Until stop.span.stop) : ∀ node ∈ nodes, node.span.Within span := by
  intro node member
  obtain ⟨_, ⟨first, inFirst, starts'⟩, last, inLast, stops'⟩ := spread.self member
  have precedes := (List.pairwise_append.mp inOrder).2.2 last inLast stop (.head _)
  rw [Span.Within, starts, starts', stops, stops']
  exact ⟨until_start inOrder (List.mem_append_left _ inFirst), precedes.2.trans forward⟩

end Ended

/-- The statements of a program are spread over its tokens, up to the end of file. -/
theorem spread_of_parse {file source : Text} {program : Program}
    (accepted : parse file source = .ok program) :
    ∃ front stop span nodes, program = ⟨span, some (.mk span nodes)⟩ ∧
      tokenize file source = .ok (front ++ [stop]) ∧ stop.kind = .endOfFile ∧
      span.start = (front.head?.getD stop).span.start ∧ span.stop = stop.span.stop ∧
      Spread front nodes := by
  obtain ⟨tokens, scanned, parsed⟩ := parse_eq_ok_iff.mp accepted
  obtain ⟨front, stop, rfl, isEnd, inside⟩ := tokenize_ended scanned
  have limits := span_of_parseTokens parsed
  obtain ⟨nodes, span, read, rfl⟩ := readProgram_of_parseTokens parsed
  rw [frontTokens_append_singleton inside isEnd, endToken_append_singleton file inside isEnd]
    at limits read
  have sequential := sequential_front (Scanner.scan_ordered scanned).1
  obtain ⟨taken, whole, spread⟩ := laid_coverage.program_covered read sequential
  rw [List.append_nil] at whole
  exact ⟨front, stop, span, nodes, rfl, scanned, isEnd, limits.1, limits.2, whole ▸ spread⟩

/-- Every node of a program reaches from the start of a token to the end of one, the root
and its body to the end of file; children lie inside of their parent, one behind the
other; and below the body no two nodes start and end at the same places. -/
theorem parse_spans_nested {file source : Text} {program : Program}
    (accepted : parse file source = .ok program) :
    ∃ front stop body, tokenize file source = .ok (front ++ [stop]) ∧ stop.kind = .endOfFile ∧
      program.body = some body ∧
      program.root.subtrees =
        program.root :: .block body :: program.statements.flatMap Node.subtrees ∧
      (∀ node ∈ [program.root, .block body],
        (∃ token ∈ front ++ [stop], node.span.start = token.span.start) ∧
          node.span.stop = stop.span.stop ∧ node.span.start.Until node.span.stop) ∧
      (∀ node ∈ program.statements.flatMap Node.subtrees,
        node.span.Joins front ∧ node.span.start.Before node.span.stop) ∧
      (∀ node ∈ program.root.subtrees, node.Encloses) ∧
      ((program.statements.flatMap Node.subtrees).map (·.span.ends)).Nodup := by
  obtain ⟨front, stop, span, nodes, rfl, scanned, isEnd, starts, stops, spread⟩ :=
    spread_of_parse accepted
  obtain ⟨inOrder, forward⟩ := Scanner.scan_ordered scanned
  have forwardStop := (forward stop List.mem_concat_self).2
  have within := spread.within inOrder starts stops forwardStop
  have whole := Program.subtrees_root span nodes
  have outer : (∃ token ∈ front ++ [stop], span.start = token.span.start) ∧
      span.stop = stop.span.stop ∧ span.start.Until span.stop := by
    refine ⟨⟨front.head?.getD stop, ?_, starts⟩, stops, ?_⟩
    · cases front with
      | nil => exact .head _
      | cons first others => exact .head _
    · rw [starts, stops]
      exact (until_start inOrder List.mem_concat_self).trans forwardStop
  refine ⟨front, stop, .mk span nodes, scanned, isEnd, rfl, whole, ?_, ?_, ?_, ?_⟩
  · exact List.forall_mem_cons.mpr ⟨outer, List.forall_mem_singleton.mpr outer⟩
  · exact fun node member => ⟨spread.joins node member, (spread.tidy node member).wide⟩
  · rw [whole]
    refine List.forall_mem_cons.mpr ⟨⟨?_, List.pairwise_singleton _ _⟩,
      List.forall_mem_cons.mpr ⟨⟨within, spread.inOrder⟩, fun node member => ?_⟩⟩
    · exact List.forall_mem_singleton.mpr (.refl span)
    · exact (spread.tidy node member).toEncloses
  · exact List.pairwise_map.mpr spread.apart

/-- Parentheses belong to no node, and the first operand starts where its sum does. -/
theorem parse_spans_nested_grouped :
    let place (start stop : Int) : Span := ⟨[], ⟨1, start⟩, ⟨1, stop⟩⟩
    let group : Node :=
      .binary (place 2 7) .add (.number (place 2 3) 1) (.number (place 6 7) 2)
    let program : Program := ⟨place 1 15, some (.mk (place 1 15)
      [.binary (place 2 12) .add group (.number (place 11 12) 3)])⟩
    let inner := program.statements.flatMap Node.subtrees
    parse [] (utf8 "(1 + 2) + 3 IM") = .ok program ∧
      inner.map (·.span) = [place 2 12, place 2 7, place 2 3, place 6 7, place 11 12] ∧
      (∀ node ∈ program.root.subtrees, node.Encloses) ∧ (inner.map (·.span.ends)).Nodup := by
  intro place group program inner
  have scanned : (tokenize [] (utf8 "(1 + 2) + 3 IM")).toOption = some [
      .inLine (.mark .openParen) "(" 1 2, .inLine .number "1" 2 3, .inLine (.mark .plus) "+" 4 5,
      .inLine .number "2" 6 7, .inLine (.mark .closeParen) ")" 7 8, .inLine (.mark .plus) "+" 9 10,
      .inLine .number "3" 11 12, .inLine (.keyword .terminator) "IM" 13 15,
      .inLine .endOfFile "" 15 15] := by
    decide +kernel
  have accepted : parse [] (utf8 "(1 + 2) + 3 IM") = .ok program := by
    refine parse_of_tokens scanned ?_
    have one : Text.toInt64? (utf8 "1") = some 1 := by decide
    have two : Text.toInt64? (utf8 "2") = some 2 := by decide
    have three : Text.toInt64? (utf8 "3") = some 3 := by decide
    simp [Token.inLine, parseTokens, topLevel, statement, assignment, terminated, formula, chain,
      primary, take, operator?, joined, endToken, Span.cover, Node.span, one, two, three, program,
      group, place]
  obtain ⟨_, _, _, _, _, _, _, _, _, encloses, distinct⟩ := parse_spans_nested accepted
  refine ⟨accepted, ?_, encloses, distinct⟩
  simp [inner, program, group, Program.statements, Block.statements, Node.subtrees_eq, Node.children,
    Node.span]

end Parlance
