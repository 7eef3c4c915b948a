import Parlance.Proofs.Text.Split
import Parlance.Trace

namespace Parlance

/-!
Summaries of several texts. Only the lines that are events count, and their
counts add up over texts one behind the other. A line that is too long is not
passed over but ends the reading, with all that stands behind it.
-/

/-- The text that has these lines, each with a newline behind it. -/
def Text.lined (lines : List Text) : Text :=
  lines.flatMap fun line => line ++ [newline]

theorem Text.lined_append (lines more : List Text) :
    lined (lines ++ more) = lined lines ++ lined more :=
  List.flatMap_append

namespace Trace

/-- The event that a line is, whatever blanks are around it. -/
def Record.ofBlankLine? (line : Text) : Option Record :=
  ofLine? (Text.trim line)

namespace Summary

theorem addLine_eq (summary : Summary) (line : Text) :
    summary.addLine line = (Record.ofBlankLine? line).elim summary summary.add := by
  unfold addLine Record.ofBlankLine?
  cases trimmed : Text.trim line with
  | nil => rfl
  | cons b rest =>
      dsimp only [List.isEmpty_cons]
      cases Record.ofLine? (b :: rest) <;> rfl

theorem foldl_addLine_eq (lines : List Text) (summary : Summary) :
    lines.foldl addLine summary = (lines.filterMap Record.ofBlankLine?).foldl add summary := by
  induction lines generalizing summary with
  | nil => rfl
  | cons line lines inductionHypothesis =>
      rw [List.foldl_cons, inductionHypothesis, addLine_eq, List.filterMap_cons]
      cases Record.ofBlankLine? line <;> rfl

/-- Short lines in front of a text are read one by one. -/
theorem lines_lined_append {front : List Text} (plain : ∀ line ∈ front, Text.newline ∉ line)
    (short : ∀ line ∈ front, line.length < lineLimit) (rest : Text) :
    lines (Text.lined front ++ rest) = front ++ lines rest := by
  have apart : Text.splitOn Text.newline (Text.lined front ++ rest) =
      front ++ Text.splitOn Text.newline rest := Text.splitOn_ended Text.newline plain rest
  rw [lines, apart, List.takeWhile_append_of_pos fun line member =>
    decide_eq_true (short line member)]
  rfl

theorem ofText_lined {front : List Text} (plain : ∀ line ∈ front, Text.newline ∉ line)
    (short : ∀ line ∈ front, line.length < lineLimit) :
    ofText (Text.lined front) = (front.filterMap Record.ofBlankLine?).foldl add empty := by
  -- Behind the last newline stands an empty line, which is no event.
  rw [← List.append_nil (Text.lined front), ofText, lines_lined_append plain short,
    List.foldl_append, ← foldl_addLine_eq]
  rfl

/-- Nothing is read from a line on that is too long. -/
theorem ofText_lined_long {front : List Text} (plain : ∀ line ∈ front, Text.newline ∉ line)
    (short : ∀ line ∈ front, line.length < lineLimit) {line : Text} (single : Text.newline ∉ line)
    (long : lineLimit ≤ line.length) (rest : Text) :
    ofText (Text.lined front ++ (line ++ Text.newline :: rest)) = ofText (Text.lined front) := by
  have nothing : lines (line ++ Text.newline :: rest) = [] := by
    rw [lines, Text.splitOn_append Text.newline single, List.takeWhile_cons,
      if_neg (by simpa using long)]
  rw [ofText_lined plain short, ofText, lines_lined_append plain short, nothing, List.append_nil,
    foldl_addLine_eq]

/-- What two summaries count, taken together. -/
structure Adds (first second whole : Summary) : Prop where
  events : whole.events = first.events + second.events
  statements : whole.statements = first.statements + second.statements
  calls : whole.calls = first.calls + second.calls
  prints : whole.prints = first.prints + second.prints
  callsByName (name : Text) : whole.callsByName.get? name =
    Option.merge (· + ·) (first.callsByName.get? name) (second.callsByName.get? name)
  deepest : whole.deepest = max first.deepest second.deepest

namespace Adds

variable {first second whole : Summary} (adds : Adds first second whole) (record : Record)
include adds

theorem addCall : Adds first (second.addCall record) (whole.addCall record) where
  events := adds.events
  statements := adds.statements
  calls := congrArg (· + 1) adds.calls
  prints := adds.prints
  callsByName name := by
    have before := adds.callsByName
    unfold Summary.addCall
    dsimp only
    split
    · next called _ =>
        rw [Table.get?_insert, Table.get?_insert, before called, before name]
        split
        · next same =>
            rw [same]
            cases first.callsByName.get? called <;> cases second.callsByName.get? called <;>
              simp [Option.merge, Nat.add_assoc]
        · rfl
    · exact before name
  deepest := by
    have before := adds.deepest
    unfold Summary.addCall
    dsimp only
    split
    · split
      · rw [before, Int.max_assoc]
      · exact before
    · exact before

theorem addKind : Adds first (second.addKind record) (whole.addKind record) := by
  unfold Summary.addKind
  -- When a run started and how it ended is not counted.
  split
  · split <;> split <;> exact { adds with }
  split
  · exact { adds with }
  split
  · exact { adds with statements := congrArg (· + 1) adds.statements }
  split
  · exact adds.addCall record
  split
  · exact { adds with prints := congrArg (· + 1) adds.prints }
  · exact adds

theorem add : Adds first (second.add record) (whole.add record) := by
  refine addKind ?_ record
  exact { adds with events := congrArg (· + 1) adds.events }

theorem foldl (records : List Record) :
    Adds first (records.foldl Summary.add second) (records.foldl Summary.add whole) := by
  induction records generalizing second whole with
  | nil => exact adds
  | cons record records inductionHypothesis => exact inductionHypothesis (adds.add record)

end Adds

theorem adds_empty : Adds empty empty empty :=
  ⟨rfl, rfl, rfl, rfl, fun _ => rfl, rfl⟩

/-- Events one behind the other add up. -/
theorem foldl_adds (records more : List Record) :
    Adds (records.foldl add empty) (more.foldl add empty) ((records ++ more).foldl add empty) := by
  rw [List.foldl_append]
  -- A call that is less deep than none is not taken for the deepest.
  have deep : (records.foldl add empty).deepest = max 0 (records.foldl add empty).deepest :=
    (adds_empty.foldl records).deepest
  refine Adds.foldl ⟨rfl, rfl, rfl, rfl, fun name => ?_, ?_⟩ more
  · cases (records.foldl add empty).callsByName.get? name <;> rfl
  · exact deep.trans (Int.max_comm ..)

/-- The lines that are no event make no difference to a summary, and the counts of two texts add
up, as long as no line is too long. Such a line hides whatever stands behind it. -/
theorem ofText_merged {front behind : List Text}
    (plain : ∀ line ∈ front ++ behind, Text.newline ∉ line)
    (short : ∀ line ∈ front ++ behind, line.length < lineLimit) :
    ofText (Text.lined front) =
        ofText (Text.lined (front.filter fun line => (Record.ofBlankLine? line).isSome)) ∧
      Adds (ofText (Text.lined front)) (ofText (Text.lined behind))
        (ofText (Text.lined front ++ Text.lined behind)) ∧
      ∀ line rest : Text, Text.newline ∉ line → lineLimit ≤ line.length →
        ofText (Text.lined front ++ (line ++ Text.newline :: rest)) =
          ofText (Text.lined front) := by
  have plainFront := fun line member => plain line (List.mem_append_left behind member)
  have shortFront := fun line member => short line (List.mem_append_left behind member)
  refine ⟨?_, ?_, fun line rest single long => ?_⟩
  · have events : front.filterMap Record.ofBlankLine? =
        (front.filter fun line => (Record.ofBlankLine? line).isSome).filterMap
          Record.ofBlankLine? := by
      rw [List.filterMap_filter]
      congr 1
      funext line
      cases Record.ofBlankLine? line <;> rfl
    rw [ofText_lined plainFront shortFront, events,
      ofText_lined (fun line member => plainFront line (List.mem_filter.mp member).1)
        (fun line member => shortFront line (List.mem_filter.mp member).1)]
  · rw [← Text.lined_append, ofText_lined plain short, ofText_lined plainFront shortFront,
      ofText_lined (fun line member => plain line (List.mem_append_right front member))
        (fun line member => short line (List.mem_append_right front member)),
      List.filterMap_append]
    exact foldl_adds ..
  · exact ofText_lined_long plainFront shortFront single long rest

/-- Two calls of one function, each next to a line that is no event. -/
theorem ofText_merged_calls :
    let deep := utf8 "\x7b\"event\":\"fn_call_start\",\"data\":\x7b\"fn\":\"f\",\"depth\":2\x7d\x7d"
    let flat := utf8 "\x7b\"event\":\"fn_call_start\",\"data\":\x7b\"fn\":\"f\",\"depth\":1\x7d\x7d"
    let whole := ofText (Text.lined [utf8 "x", deep] ++ Text.lined [flat, utf8 "[]"])
    ofText (Text.lined [utf8 "x", deep]) = ofText (Text.lined [deep]) ∧
      whole.calls = 2 ∧ whole.callsByName.get? (utf8 "f") = some 2 ∧ whole.deepest = 2 := by
  intro deep flat whole
  obtain ⟨same, sums, -⟩ := @ofText_merged [utf8 "x", deep] [flat, utf8 "[]"]
    (by decide +kernel) (by decide +kernel)
  have kept : ([utf8 "x", deep].filter fun line => (Record.ofBlankLine? line).isSome) = [deep] := by
    decide +kernel
  rw [kept] at same
  exact ⟨same, sums.calls.trans (by decide +kernel),
    (sums.callsByName (utf8 "f")).trans (by decide +kernel),
    sums.deepest.trans (by decide +kernel)⟩

/-- A line that is too long hides a print behind it. -/
theorem ofText_long_hides :
    let event := utf8 "\x7b\"event\":\"print\",\"runId\":\"r\"\x7d"
    (ofText (Text.lined [event])).prints = 1 ∧
      (ofText (Text.lined [List.replicate lineLimit 120, event])).prints = 0 := by
  intro event
  have long : ofText (List.replicate lineLimit 120 ++ Text.newline :: Text.lined [event]) = empty :=
    @ofText_lined_long [] (List.forall_mem_nil _) (List.forall_mem_nil _)
      (List.replicate lineLimit 120)
      (fun member => absurd (List.eq_of_mem_replicate member) (by decide))
      (Nat.le_of_eq List.length_replicate.symm) (Text.lined [event])
  refine ⟨by decide +kernel, ?_⟩
  rw [Text.lined, List.flatMap_cons, List.append_assoc, List.singleton_append]
  exact congrArg Summary.prints long

end Summary

end Trace

end Parlance
