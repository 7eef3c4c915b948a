import Parlance.Text

namespace Parlance

/-!
Finite tables with texts as keys. The entries are kept in the bytewise order
of their keys and no key occurs twice, so tables with the same entries are
equal.
-/

namespace Text

theorem compare_self (text : Text) : compare text text = .eq := by
  induction text with
  | nil => rfl
  | cons b rest inductionHypothesis =>
      simp [compare, inductionHypothesis, Ordering.then]

theorem eq_of_compare {a b : Text} (same : compare a b = .eq) : a = b := by
  induction a generalizing b with
  | nil => cases b <;> simp_all [compare]
  | cons x xs inductionHypothesis =>
      cases b with
      | nil => simp [compare] at same
      | cons y ys =>
          simp only [compare, Ordering.then_eq_eq] at same
          rw [Std.LawfulEqOrd.eq_of_compare same.1, inductionHypothesis same.2]

theorem compare_swap (a b : Text) : (compare a b).swap = compare b a := by
  induction a generalizing b with
  | nil => cases b <;> rfl
  | cons x xs inductionHypothesis =>
      cases b with
      | nil => rfl
      | cons y ys =>
          simp only [compare, Ordering.swap_then, inductionHypothesis]
          rw [← Std.OrientedOrd.eq_swap]

theorem before_trans {a b c : Text} (first : before a b = true) (second : before b c = true) :
    before a c = true := by
  simp only [before, beq_iff_eq] at *
  induction a generalizing b c with
  | nil =>
      cases b with
      | nil => simp [compare] at first
      | cons y ys => cases c <;> simp_all [compare]
  | cons x xs inductionHypothesis =>
      cases b with
      | nil => simp [compare] at first
      | cons y ys =>
          cases c with
          | nil => simp [compare] at second
          | cons z zs =>
              simp only [compare, Ordering.then_eq_lt] at first second ⊢
              rcases first with first | ⟨same, first⟩
              · rcases second with second | ⟨same', _⟩
                · exact .inl (Std.TransCmp.lt_trans first second)
                · rw [← Std.LawfulEqOrd.eq_of_compare same']
                  exact .inl first
              · rw [Std.LawfulEqOrd.eq_of_compare same]
                rcases second with second | ⟨same', second⟩
                · exact .inl second
                · exact .inr ⟨same', inductionHypothesis first second⟩

end Text

structure Table (α : Type) where
  entries : List (Text × α)
  sorted : entries.Pairwise fun first second => Text.before first.1 second.1 = true

namespace Table

variable {α : Type}

def empty : Table α := ⟨[], .nil⟩

instance : Inhabited (Table α) := ⟨empty⟩

/-- Puts an entry in its place, over an old one of the same key. -/
def insertEntry (key : Text) (value : α) : List (Text × α) → List (Text × α)
  | [] => [(key, value)]
  | entry :: rest =>
    match Text.compare key entry.1 with
    | .lt => (key, value) :: entry :: rest
    | .eq => (key, value) :: rest
    | .gt => entry :: insertEntry key value rest

theorem mem_insertEntry {key : Text} {value : α} {entries : List (Text × α)} {entry : Text × α}
    (member : entry ∈ insertEntry key value entries) : entry = (key, value) ∨ entry ∈ entries := by
  induction entries with
  | nil => simpa [insertEntry] using member
  | cons first rest inductionHypothesis =>
      unfold insertEntry at member
      split at member
      · simpa using member
      · rcases List.mem_cons.mp member with rfl | member
        · exact .inl rfl
        · exact .inr (List.mem_cons_of_mem _ member)
      · rcases List.mem_cons.mp member with rfl | member
        · exact .inr List.mem_cons_self
        · exact (inductionHypothesis member).imp id (List.mem_cons_of_mem _)

theorem insertEntry_sorted (key : Text) (value : α) {entries : List (Text × α)}
    (sorted : entries.Pairwise fun first second => Text.before first.1 second.1 = true) :
    (insertEntry key value entries).Pairwise
      fun first second => Text.before first.1 second.1 = true := by
  induction entries with
  | nil => simp [insertEntry]
  | cons first rest inductionHypothesis =>
      obtain ⟨smallest, sortedRest⟩ := List.pairwise_cons.mp sorted
      unfold insertEntry
      split
      · next less =>
          have front : Text.before key first.1 = true := by simp [Text.before, less]
          refine List.pairwise_cons.mpr ⟨?_, sorted⟩
          intro entry member
          rcases List.mem_cons.mp member with rfl | member
          · exact front
          · exact Text.before_trans front (smallest entry member)
      · next same =>
          refine List.pairwise_cons.mpr ⟨?_, sortedRest⟩
          intro entry member
          rw [Text.eq_of_compare same]
          exact smallest entry member
      · next greater =>
          refine List.pairwise_cons.mpr ⟨?_, inductionHypothesis sortedRest⟩
          intro entry member
          rcases mem_insertEntry member with rfl | member
          · simp only [Text.before, beq_iff_eq]
            rw [← Text.compare_swap, greater]
            rfl
          · exact smallest entry member

def insert (table : Table α) (key : Text) (value : α) : Table α :=
  ⟨insertEntry key value table.entries, insertEntry_sorted key value table.sorted⟩

def findEntry (key : Text) : List (Text × α) → Option α
  | [] => none
  | entry :: rest => if key = entry.1 then some entry.2 else findEntry key rest

def get? (table : Table α) (key : Text) : Option α :=
  findEntry key table.entries

/-- The keys in bytewise order. -/
def keys (table : Table α) : List Text :=
  table.entries.map (·.1)

theorem findEntry_insertEntry (key other : Text) (value : α) (entries : List (Text × α)) :
    findEntry other (insertEntry key value entries) =
      if other = key then some value else findEntry other entries := by
  induction entries with
  | nil => rfl
  | cons first rest inductionHypothesis =>
      unfold insertEntry
      split
      · rfl
      · next equal =>
          rw [Text.eq_of_compare equal]
          by_cases same : other = first.1 <;> simp [findEntry, same]
      · next greater =>
          by_cases same : other = first.1
          · have differs : ¬ first.1 = key := by
              intro equal
              rw [← equal, Text.compare_self] at greater
              contradiction
            simp [findEntry, same, differs]
          · simp [findEntry, same, inductionHypothesis]

theorem get?_insert (table : Table α) (key other : Text) (value : α) :
    (table.insert key value).get? other = if other = key then some value else table.get? other :=
  findEntry_insertEntry key other value table.entries

theorem get?_empty (key : Text) : (empty : Table α).get? key = none := rfl

end Table

end Parlance
