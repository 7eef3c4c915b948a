import Parlance.Lint

namespace Parlance

/-!
Lint checks without a scope that is passed on. A block adds only names to the
scope that the body around it has added before, so what the checks find in a
body depends on nothing but the names that it and the bodies around it assign.
-/

namespace Lint

mutual

/-- What is found in a statement where these names are `visible`. -/
def statement (context : Context) (visible : List Text) : Node → List Diagnostic
  | .declaration _ _ parameters body =>
    optionalBlock context (parameters ++ assignedInOptional body ++ visible) body
  | .giveBack _ value => expression context visible value
  | .conditional _ condition body alternative =>
    expression context visible condition ++ optionalBlock context visible body ++
      otherwise context visible alternative
  | .unary _ _ operand => expression context visible operand
  | .block body => block context visible body
  | node => expression context visible node

def statements (context : Context) (visible : List Text) (returned : Bool) :
    List Node → List Diagnostic
  | [] => []
  | node :: nodes =>
    if returned then [unreachable node]
    else
      statement context visible node ++ statements context visible (isReturn node) nodes

def block (context : Context) (visible : List Text) : Block → List Diagnostic
  | .mk _ nodes => statements context visible false nodes

def optionalBlock (context : Context) (visible : List Text) : Option Block → List Diagnostic
  | .none => []
  | some body => block context visible body

def otherwise (context : Context) (visible : List Text) : Option Node → List Diagnostic
  | some (.conditional _ condition body alternative) =>
    expression context visible condition ++ optionalBlock context visible body ++
      otherwise context visible alternative
  | some (.block body) => block context visible body
  | _ => []

end

mutual

/-- It does not matter in which order names are visible. -/
theorem expression_congr (context : Context) {visible visible' : List Text}
    (same : ∀ name, name ∈ visible ↔ name ∈ visible') : ∀ node : Node,
    expression context visible node = expression context visible' node
  | .reference _ name => by simp only [expression, same name]
  | .binary _ _ left right => by
      simp only [expression, expression_congr context same left,
        expression_congr context same right]
  | .call _ _ arguments => by simp only [expression, expressions_congr context same arguments]
  | .unary _ _ operand => expression_congr context same operand
  | .number .. | .string .. | .declaration .. | .conditional .. | .block .. | .giveBack ..
  | .program .. => rfl

theorem expressions_congr (context : Context) {visible visible' : List Text}
    (same : ∀ name, name ∈ visible ↔ name ∈ visible') : ∀ nodes : List Node,
    expressions context visible nodes = expressions context visible' nodes
  | [] => rfl
  | node :: nodes => by
      simp only [expressions, expression_congr context same node,
        expressions_congr context same nodes]

end

def Scope.Shows (visible : List Text) (scope : Scope) : Prop :=
  ∀ name, name ∈ scope.visible ↔ name ∈ visible

namespace Scope.Shows

variable {scope : Scope} {visible names : List Text}

theorem add (shows : scope.Shows visible) (names : List Text) :
    (scope.add names).Shows (names ++ visible) := by
  intro name
  simp only [Scope.visible, Scope.add, List.append_assoc, List.mem_append, ← shows name]

theorem child (shows : scope.Shows visible) (names : List Text) :
    (scope.child names).Shows (names ++ visible) := by
  intro name
  simp only [Scope.visible, Scope.child, List.flatten_cons, List.mem_append, ← shows name]

theorem congr {visible' : List Text} (shows : scope.Shows visible)
    (same : ∀ name, name ∈ visible ↔ name ∈ visible') : scope.Shows visible' :=
  fun name => (shows name).trans (same name)

end Scope.Shows

namespace Check

/-- Where the names of `before` can be read the check finds this, and behind it those of `visible`
can be read. -/
def Finds (before visible : List Text) (found : List Diagnostic) (check : Check) : Prop :=
  ∀ scope : Scope, scope.Shows before → (check scope).1 = found ∧ (check scope).2.Shows visible

namespace Finds

variable {context : Context} {before visible after : List Text} {found more : List Diagnostic}
  {first second : Check}

theorem value (found : List Diagnostic) : Finds visible visible found (pure found) :=
  fun _ shows => ⟨rfl, shows⟩

theorem reading (node : Node) :
    Finds visible visible (expression context visible node) (.reading context node) :=
  fun _ shows => ⟨expression_congr context shows node, shows⟩

theorem followedBy (finds : Finds before visible found first)
    (behind : Finds visible after more second) :
    Finds before after (found ++ more) (first.followedBy second) := by
  intro scope shows
  obtain ⟨sameFound, shows'⟩ := finds scope shows
  obtain ⟨sameMore, shows''⟩ := behind _ shows'
  refine ⟨?_, shows''⟩
  rw [← sameFound, ← sameMore]
  rfl

theorem conditional (condition : Node) (finds : Finds visible visible found first)
    (behind : Finds visible visible more second) :
    Finds visible visible (expression context visible condition ++ found ++ more)
      ((Check.reading context condition).followedBy (first.followedBy second)) := by
  rw [List.append_assoc]
  exact .followedBy (.reading condition) (.followedBy finds behind)

theorem inside {names : List Text} (finds : Finds (names ++ visible) after found first) :
    Finds visible visible found (.inside names first) :=
  fun _ shows => ⟨(finds _ (shows.child names)).1, shows⟩

/-- Names may be added in front that make up what is visible. -/
theorem adding {names : List Text} (finds : Finds visible after found first)
    (grows : ∀ name, name ∈ visible ↔ name ∈ names ∨ name ∈ before) :
    Finds before after found (do modify (Scope.add names); first) := by
  intro scope shows
  refine finds (scope.add names) ((shows.add names).congr fun name => ?_)
  rw [List.mem_append, grows]

end Finds

end Check

section Walks

variable {context : Context}

/-- A block around which its names are visible adds none to them. -/
theorem mem_iff_of_subset {names visible : List Text} (within : names ⊆ visible) (name : Text) :
    name ∈ visible ↔ name ∈ names ∨ name ∈ visible :=
  (or_iff_right_of_imp (within ·)).symm

mutual

theorem checkStatement_finds {visible : List Text} : ∀ node : Node, assigned node ⊆ visible →
    Check.Finds visible visible (statement context visible node) (checkStatement context node)
  | .declaration _ _ parameters body, _ => by
      refine .inside (checkOptional_finds body fun name => ?_)
      simp only [List.mem_append]
      rw [or_assoc, or_left_comm]
  | .giveBack _ value, _ => .reading value
  | .conditional _ condition body alternative, within => by
      rw [assigned, List.append_subset] at within
      exact .conditional condition (checkOptional_finds body (mem_iff_of_subset within.1))
        (checkAlternative_finds alternative within.2)
  | .unary _ _ operand, _ => .reading operand
  | .block body, within => checkBlock_finds body (mem_iff_of_subset within)
  | .number .., _ | .string .., _ | .reference .., _ | .call .., _ | .binary .., _
  | .program .., _ => .reading _

theorem checkStatements_finds {visible : List Text} (returned : Bool) : ∀ nodes : List Node,
    assignedInAll nodes ⊆ visible →
    Check.Finds visible visible (statements context visible returned nodes)
      (checkStatements context returned nodes)
  | [], _ => .value []
  | node :: nodes, within => by
      rw [assignedInAll, List.append_subset] at within
      rw [statements, checkStatements]
      split
      · exact .value _
      · exact .followedBy (checkStatement_finds node within.1)
          (checkStatements_finds (isReturn node) nodes within.2)

theorem checkBlock_finds {before visible : List Text} : ∀ body : Block,
    (∀ name, name ∈ visible ↔ name ∈ assignedInBlock body ∨ name ∈ before) →
    Check.Finds before visible (block context visible body) (checkBlock context body)
  | .mk _ nodes, grows =>
      .adding (checkStatements_finds false nodes fun name member =>
        (grows name).mpr (.inl member)) grows

theorem checkOptional_finds {before visible : List Text} : ∀ body : Option Block,
    (∀ name, name ∈ visible ↔ name ∈ assignedInOptional body ∨ name ∈ before) →
    Check.Finds before visible (optionalBlock context visible body) (checkOptional context body)
  | none, grows => fun _ shows => ⟨rfl, shows.congr fun name =>
      ((grows name).trans (or_iff_right List.not_mem_nil)).symm⟩
  | some body, grows => checkBlock_finds body grows

theorem checkAlternative_finds {visible : List Text} : ∀ alternative : Option Node,
    assignedInAlternative alternative ⊆ visible →
    Check.Finds visible visible (otherwise context visible alternative)
      (checkAlternative context alternative)
  | some (.conditional _ condition body alternative), within => by
      rw [assignedInAlternative, assigned, List.append_subset] at within
      exact .conditional condition (checkOptional_finds body (mem_iff_of_subset within.1))
        (checkAlternative_finds alternative within.2)
  | some (.block body), within => checkBlock_finds body (mem_iff_of_subset within)
  | none, _ => .value []
  | some (.number ..), _ | some (.string ..), _ | some (.reference ..), _ | some (.call ..), _
  | some (.unary ..), _ | some (.binary ..), _ | some (.declaration ..), _
  | some (.giveBack ..), _ | some (.program ..), _ => .value []

end

end Walks

end Lint

/-- The scope that is passed on through a program shows the names that the program assigns outside
of functions and the known ones, everywhere in it. -/
theorem Program.lint_eq (program : Program) (known : Known) :
    program.lint known = Lint.statements ⟨Lint.declaredInAll program.statements, known⟩
      (Lint.assignedInAll program.statements ++ known.bound) false program.statements := by
  have start : Lint.Scope.Shows known.bound ⟨known.bound, []⟩ := fun name => by
    simp [Lint.Scope.visible]
  obtain ⟨span, body⟩ := program
  match body with
  | none => rfl
  | some (.mk place nodes) =>
      exact (Lint.checkOptional_finds (some (.mk place nodes))
        (fun name => List.mem_append) _ start).1

end Parlance
