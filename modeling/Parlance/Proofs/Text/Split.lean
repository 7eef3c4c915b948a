import Parlance.Text

namespace Parlance.Text

/-! The pieces of a text between the occurrences of a byte. -/

variable (separator : UInt8)

theorem splitOn_ne_nil (text : Text) : splitOn separator text ≠ [] := by
  cases text with
  | nil => exact List.cons_ne_nil _ _
  | cons b rest =>
      unfold splitOn
      split
      · exact List.cons_ne_nil _ _
      · split <;> exact List.cons_ne_nil _ _

theorem splitOn_cons (b : UInt8) {rest piece : Text} {pieces : List Text}
    (whole : splitOn separator rest = piece :: pieces) :
    splitOn separator (b :: rest) =
      if b = separator then [] :: piece :: pieces else (b :: piece) :: pieces := by
  rw [splitOn, whole]

/-- The first piece starts like the text, unless that starts with the separator. -/
theorem head?_splitOn {b : UInt8} (differs : b ≠ separator) {text piece : Text} {pieces : List Text}
    (whole : splitOn separator text = piece :: pieces) :
    piece.head? = some b ↔ text.head? = some b := by
  cases text with
  | nil =>
      cases whole
      exact .rfl
  | cons first rest =>
      obtain ⟨next, others, tail⟩ := List.exists_cons_of_ne_nil (splitOn_ne_nil separator rest)
      rw [splitOn_cons separator first tail] at whole
      split at whole
      · next isSeparator =>
          cases whole
          simp [isSeparator, differs.symm]
      · cases whole
        exact .rfl

theorem splitOn_append {piece : Text} (inside : separator ∉ piece) (rest : Text) :
    splitOn separator (piece ++ separator :: rest) = piece :: splitOn separator rest := by
  induction piece with
  | nil =>
      rw [List.nil_append, splitOn]
      cases pieces : splitOn separator rest with
      | nil => exact absurd pieces (splitOn_ne_nil separator rest)
      | cons => exact if_pos rfl
  | cons b piece inductionHypothesis =>
      rw [List.mem_cons, not_or] at inside
      rw [List.cons_append, splitOn, inductionHypothesis inside.2]
      exact if_neg (Ne.symm inside.1)

/-- Pieces that each end with the separator are split apart again. -/
theorem splitOn_ended {pieces : List Text} (inside : ∀ piece ∈ pieces, separator ∉ piece)
    (rest : Text) :
    splitOn separator ((pieces.flatMap fun piece => piece ++ [separator]) ++ rest) =
      pieces ++ splitOn separator rest := by
  induction pieces with
  | nil => rfl
  | cons piece pieces inductionHypothesis =>
      rw [List.forall_mem_cons] at inside
      rw [List.flatMap_cons, List.append_assoc, List.append_assoc, List.singleton_append,
        splitOn_append separator inside.1, inductionHypothesis inside.2]
      rfl

theorem join_singleton (separator piece : Text) : join separator [piece] = piece := by
  simp [join]

theorem join_cons_cons (separator piece next : Text) (pieces : List Text) :
    join separator (piece :: next :: pieces) =
      piece ++ separator ++ join separator (next :: pieces) := by
  simp [join]

theorem join_cons (separator piece : Text) {pieces : List Text} (more : pieces ≠ []) :
    join separator (piece :: pieces) = piece ++ separator ++ join separator pieces := by
  cases pieces with
  | nil => contradiction
  | cons next pieces => exact join_cons_cons separator piece next pieces

theorem not_mem_join {b : UInt8} {separator : Text} (parts : b ∉ separator) :
    ∀ pieces : List Text, (∀ piece ∈ pieces, b ∉ piece) → b ∉ join separator pieces
  | [], _ => List.not_mem_nil
  | [piece], outside => by
      rw [join_singleton]
      exact outside piece (.head _)
  | piece :: next :: pieces, outside => by
      obtain ⟨first, others⟩ := List.forall_mem_cons.mp outside
      rw [join_cons_cons]
      simp only [List.mem_append, not_or]
      exact ⟨⟨first, parts⟩, not_mem_join parts (next :: pieces) others⟩

theorem splitOn_of_not_mem {text : Text} (inside : separator ∉ text) :
    splitOn separator text = [text] := by
  induction text with
  | nil => rfl
  | cons b rest inductionHypothesis =>
      rw [List.mem_cons, not_or] at inside
      rw [splitOn_cons separator b (inductionHypothesis inside.2)]
      exact if_neg (Ne.symm inside.1)

theorem splitOn_join {pieces : List Text} (nonempty : pieces ≠ [])
    (inside : ∀ piece ∈ pieces, separator ∉ piece) :
    splitOn separator (join [separator] pieces) = pieces := by
  induction pieces with
  | nil => contradiction
  | cons piece pieces inductionHypothesis =>
      obtain ⟨first, others⟩ := List.forall_mem_cons.mp inside
      cases pieces with
      | nil => rw [join_singleton, splitOn_of_not_mem separator first]
      | cons next pieces =>
          rw [join_cons_cons, List.append_assoc, List.singleton_append,
            splitOn_append separator first, inductionHypothesis (List.cons_ne_nil next pieces) others]

theorem not_mem_splitOn (text : Text) :
    ∀ piece ∈ splitOn separator text, separator ∉ piece := by
  induction text with
  | nil => simp [splitOn]
  | cons b rest inductionHypothesis =>
      obtain ⟨piece, pieces, whole⟩ := List.exists_cons_of_ne_nil (splitOn_ne_nil separator rest)
      rw [whole] at inductionHypothesis
      rw [splitOn_cons separator b whole]
      split
      · exact List.forall_mem_cons.mpr ⟨List.not_mem_nil, inductionHypothesis⟩
      · next differs =>
          obtain ⟨first, others⟩ := List.forall_mem_cons.mp inductionHypothesis
          refine List.forall_mem_cons.mpr ⟨?_, others⟩
          rw [List.mem_cons, not_or]
          exact ⟨Ne.symm differs, first⟩

/-- To join with another byte is to replace the separator. -/
theorem join_splitOn_eq_map (other : UInt8) (text : Text) :
    join [other] (splitOn separator text) = text.map fun b => if b = separator then other else b := by
  induction text with
  | nil => rfl
  | cons b rest inductionHypothesis =>
      obtain ⟨piece, pieces, whole⟩ := List.exists_cons_of_ne_nil (splitOn_ne_nil separator rest)
      rw [whole] at inductionHypothesis
      rw [splitOn_cons separator b whole, List.map_cons, ← inductionHypothesis]
      split
      · rw [join_cons_cons]
        rfl
      · cases pieces <;> simp [join]

theorem join_splitOn (text : Text) :
    join [separator] (splitOn separator text) = text := by
  have same : (fun b : UInt8 => if b = separator then separator else b) = id := by
    funext b
    split
    · next isSeparator => exact isSeparator.symm
    · rfl
  rw [join_splitOn_eq_map, same, List.map_id]

end Parlance.Text
