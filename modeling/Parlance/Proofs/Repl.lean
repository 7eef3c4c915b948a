import Parlance.Repl

namespace Parlance

/-!
How the interactive loop cuts its input into texts. A line is put behind the
lines before it as long as these break off, and each text that comes to its end
is taken by the session at once. What the session knows at the end depends on
the texts alone.
-/

namespace Text

theorem trimStartFrom_of_eq_cons {pending : Nat} {text rest : Text} {b : UInt8}
    (trimmed : trimStartFrom pending text = b :: rest) : trimStart (b :: rest) = b :: rest := by
  induction text generalizing pending with
  | nil => cases pending <;> cases trimmed
  | cons first others inductionHypothesis =>
      cases pending with
      | succ pending => exact inductionHypothesis trimmed
      | zero =>
          rw [trimStartFrom] at trimmed
          split at trimmed
          · next code width found =>
              split at trimmed
              · exact inductionHypothesis trimmed
              · next solid =>
                  cases trimmed
                  rw [trimStart, trimStartFrom, found]
                  exact if_neg solid
          · next invalid =>
              cases trimmed
              rw [trimStart, trimStartFrom, invalid]

theorem isWhite_iff_trim (text : Text) : isWhite text = true ↔ trim text = [] := by
  unfold isWhite trim
  cases trimmed : trimStart text with
  | nil => simp [trimEndFrom]
  | cons b rest =>
      have again := trimStartFrom_of_eq_cons trimmed
      simp [trimEndFrom, isWhite, again]

end Text

namespace Repl

/-- The lines break off, so that another line is read behind them. -/
structure Open (lines : List Text) : Prop where
  incomplete : ∃ error, parse file (joined lines) = .error error ∧ error.incomplete = true
  solid : ∀ line, lines.getLast? = some line → Text.trim line ≠ []
  plain : isCommand (joined lines) = false

def Unfinished (lines : List Text) : Prop :=
  ∀ opening, opening <+: lines → opening ≠ [] → Open opening

/-- The last line is the first one behind which no other is read. -/
def Complete (lines : List Text) : Prop :=
  ∃ before line, lines = before ++ [line] ∧ Unfinished before ∧ ¬ Open lines

/-- The text is one of the commands to leave, in letters of any case. -/
def quits (text : Text) : Bool :=
  isCommand text && [utf8 ":quit", utf8 ":q", utf8 ":exit"].contains (Text.lower (Text.trim text))

/-- The session behind a text that does not leave the loop. -/
def after (session : Session) (text : Text) : Session :=
  if Text.trim text = [] then session
  else if isCommand text then
    if Text.lower (Text.trim text) = utf8 ":reset" then session.reset else session
  else (session.run .unlimited .live file text).2

/-- The session behind the texts up to the first that leaves the loop. -/
def replay (session : Session) : List Text → Session
  | [] => session
  | text :: texts => if quits text then session else replay (after session text) texts

/-- How a script is cut into texts. What is dropped was broken off by an abort
or a failure, and what is not read stands behind a failure or a text that
leaves the loop. -/
inductive Cuts : List Input → List (List Text) → Prop
  | done : Cuts [] []
  | text {lines : List Text} {rest : List Input} {texts : List (List Text)}
      (complete : Complete lines) (stays : quits (joined lines) = false)
      (behind : Cuts rest texts) : Cuts (lines.map .line ++ rest) (lines :: texts)
  | quit {lines : List Text} {unread : List Input} (complete : Complete lines)
      (leaves : quits (joined lines) = true) : Cuts (lines.map .line ++ unread) [lines]
  | ended {lines : List Text} (nonempty : lines ≠ []) (unfinished : Unfinished lines) :
      Cuts (lines.map .line) [lines]
  | abort {lines : List Text} {rest : List Input} {texts : List (List Text)}
      (unfinished : Unfinished lines) (behind : Cuts rest texts) :
      Cuts (lines.map .line ++ .abort :: rest) texts
  | failure {lines : List Text} {unread : List Input} (unfinished : Unfinished lines) :
      Cuts (lines.map .line ++ .failure :: unread) []

section Texts

variable {pending : List Text} {line : Text}

theorem isIncomplete_iff (text : Text) :
    isIncomplete text = true ↔ ∃ error, parse file text = .error error ∧ error.incomplete = true := by
  unfold isIncomplete
  cases parse file text with
  | ok program => simp
  | error error => simp

theorem continues_iff : continues pending line = true ↔ Open (pending ++ [line]) := by
  have last : (∀ other, (pending ++ [line]).getLast? = some other → Text.trim other ≠ []) ↔
      Text.isWhite line = false := by
    rw [← Bool.not_eq_true, Text.isWhite_iff_trim]
    simp
  have unfolded : continues pending line = true ↔
      isCommand (joined (pending ++ [line])) = false ∧
        isIncomplete (joined (pending ++ [line])) = true ∧ Text.isWhite line = false := by
    simp [continues, and_assoc]
  rw [unfolded, isIncomplete_iff, ← last]
  constructor
  · rintro ⟨plain, incomplete, solid⟩
    exact ⟨incomplete, solid, plain⟩
  · rintro ⟨incomplete, solid, plain⟩
    exact ⟨plain, incomplete, solid⟩

theorem unfinished_nil : Unfinished [] := by
  intro opening isPrefix nonempty
  exact absurd (List.prefix_nil.mp isPrefix) nonempty

theorem Unfinished.append (unfinished : Unfinished pending) (opens : Open (pending ++ [line])) :
    Unfinished (pending ++ [line]) := by
  intro opening isPrefix nonempty
  rcases List.prefix_concat_iff.mp isPrefix with rfl | inside
  · exact opens
  · exact unfinished opening inside nonempty

end Texts

/-- The lines that are taken as a text when the input arrives. -/
def submission? (pending : List Text) : Option Input → Option (List Text)
  | some (.line line) => if continues pending line then none else some (pending ++ [line])
  | some .abort => none
  | some .failure => none
  | none => if pending.isEmpty then none else some pending

/-- The loop takes turn after turn, at the end of the script again and again,
until one ends it. -/
inductive Finishes (look : Look) :
    State → List Input → List (List Text) → List Output → State → Prop
  | ended {state : State} {inputs : List Input}
      (ends : (turn look state inputs.head?).ended = true) :
      Finishes look state inputs (submission? state.pending inputs.head?).toList
        (turn look state inputs.head?).output (turn look state inputs.head?).state
  | next {state final : State} {inputs : List Input} {texts : List (List Text)}
      {outputs : List Output} (goesOn : (turn look state inputs.head?).ended = false)
      (behind : Finishes look (turn look state inputs.head?).state inputs.tail texts outputs final) :
      Finishes look state inputs ((submission? state.pending inputs.head?).toList ++ texts)
        ((turn look state inputs.head?).output ++ outputs) final

section Submission

variable (look : Look) (session : Session) (text : Text)

theorem obey_quits (quits : Text.lower text ∈ [utf8 ":quit", utf8 ":q", utf8 ":exit"]) :
    (obey session text).2 = none := by
  unfold obey
  dsimp only
  rw [if_pos (by simpa [or_assoc] using quits)]

theorem obey_stays (stays : Text.lower text ∉ [utf8 ":quit", utf8 ":q", utf8 ":exit"]) :
    (obey session text).2 =
      some (if Text.lower text = utf8 ":reset" then session.reset else session) := by
  unfold obey
  dsimp only
  rw [if_neg (by simpa [or_assoc] using stays)]
  by_cases isReset : Text.lower text = utf8 ":reset"
  · rw [if_pos isReset, if_pos isReset]
  · rw [if_neg isReset, if_neg isReset]
    split
    · rfl
    · split <;> rfl

/-- A text leaves nothing pending, and it ends the loop only if it says so. -/
theorem submit_spec :
    (submit look session text).ended = quits text ∧
      (submit look session text).state =
        ⟨if quits text then session else after session text, []⟩ := by
  by_cases blank : Text.trim text = []
  · have plain : isCommand text = false := by
      rw [isCommand, blank]
      rfl
    simp [submit, quits, after, blank, plain]
  · cases command : isCommand text with
    | false =>
        have noColon : Text.hasPrefix (utf8 ":") (Text.trim text) = false := command
        have ran : (evaluate look session text).2 = (session.run .unlimited .live file text).2 := by
          unfold evaluate
          cases session.run .unlimited .live file text with
          | mk result after => cases result <;> rfl
        simp [submit, quits, after, blank, command, noColon, ran]
    | true =>
        have colon : Text.hasPrefix (utf8 ":") (Text.trim text) = true := command
        by_cases leaves : Text.lower (Text.trim text) ∈ [utf8 ":quit", utf8 ":q", utf8 ":exit"]
        · have obeyed := obey_quits session (Text.trim text) leaves
          have isQuit : quits text = true := by simpa [quits, command] using leaves
          rw [isQuit]
          simp only [submit, List.isEmpty_iff, blank, colon, if_true, if_false]
          generalize obey session (Text.trim text) = answer at obeyed
          obtain ⟨output, next⟩ := answer
          cases obeyed
          exact ⟨rfl, rfl⟩
        · have obeyed := obey_stays session (Text.trim text) leaves
          have isNotQuit : quits text = false := by simpa [quits, command] using leaves
          rw [isNotQuit]
          simp only [submit, List.isEmpty_iff, blank, colon, if_true, if_false, after, command]
          generalize obey session (Text.trim text) = answer at obeyed
          obtain ⟨output, next⟩ := answer
          cases obeyed
          exact ⟨rfl, rfl⟩

example : (submit look session (utf8 " :QuIt ")).ended = true := by rfl

end Submission

section Turns

variable {look : Look} {session : Session} {pending : List Text} {line : Text}

theorem turn_continued (opens : Open (pending ++ [line])) :
    submission? pending (some (.line line)) = none ∧
      (turn look ⟨session, pending⟩ (some (.line line))).ended = false ∧
      (turn look ⟨session, pending⟩ (some (.line line))).state = ⟨session, pending ++ [line]⟩ := by
  have goesOn := continues_iff.mpr opens
  simp [turn, advance, submission?, goesOn]

theorem advance_of_submission {input : Option Input} {lines : List Text}
    (submits : submission? pending input = some lines) :
    advance look ⟨session, pending⟩ input = submit look session (joined lines) := by
  cases input with
  | none =>
      rw [submission?] at submits
      split at submits
      · cases submits
      · next nonempty =>
          cases submits
          exact if_neg nonempty
  | some input =>
      cases input with
      | line line =>
          rw [submission?] at submits
          split at submits
          · cases submits
          · next stops =>
              cases submits
              exact if_neg stops
      | abort | failure => cases submits

theorem advance_of_no_submission {input : Option Input} (waits : submission? pending input = none) :
    (advance look ⟨session, pending⟩ input).state.session = session ∧
      ∀ shown ∈ (advance look ⟨session, pending⟩ input).output, shown = .print [Text.newline] := by
  cases input with
  | none =>
      cases pending with
      | nil => simp [advance]
      | cons line lines => cases waits
  | some input =>
      cases input with
      | line line =>
          rw [submission?] at waits
          split at waits
          · next goesOn => simp [advance, goesOn]
          · cases waits
      | abort | failure => simp [advance]

theorem turn_submitted {input : Option Input} {lines : List Text}
    (submits : submission? pending input = some lines) :
    (turn look ⟨session, pending⟩ input).ended = quits (joined lines) ∧
      (turn look ⟨session, pending⟩ input).state =
        ⟨if quits (joined lines) then session else after session (joined lines), []⟩ := by
  rw [turn, advance_of_submission submits]
  exact submit_spec look session (joined lines)

theorem submission?_completed (closed : ¬ Open (pending ++ [line])) :
    submission? pending (some (.line line)) = some (pending ++ [line]) :=
  if_neg fun goesOn => closed (continues_iff.mp goesOn)

theorem submission?_cut (nonempty : pending ≠ []) : submission? pending none = some pending :=
  if_neg fun empty => nonempty (List.isEmpty_iff.mp empty)

theorem Open.stays (opens : Open pending) : quits (joined pending) = false := by
  simp [quits, opens.plain]

end Turns

theorem Cuts.eq_nil {texts : List (List Text)} (cuts : Cuts [] texts) : texts = [] := by
  generalize empty : ([] : List Input) = inputs at cuts
  cases cuts with
  | done => rfl
  | text complete _ _ | quit complete _ =>
      obtain ⟨before, line, rfl, _⟩ := complete
      simp at empty
  | ended nonempty _ => exact absurd (List.map_eq_nil_iff.mp empty.symm) nonempty
  | abort | failure => simp at empty

theorem Unfinished.open_self {pending : List Text} (unfinished : Unfinished pending)
    (nonempty : pending ≠ []) : Open pending :=
  unfinished pending (List.prefix_refl pending) nonempty

section Scripts

variable {look : Look} {session : Session} {pending : List Text} {inputs : List Input}

/-- The last turn: the script is at its end, the terminal fails, or a text leaves the loop. -/
theorem cuts_ended (unfinished : Unfinished pending)
    (ends : (turn look ⟨session, pending⟩ inputs.head?).ended = true) :
    let texts := (submission? pending inputs.head?).toList
    Cuts (pending.map .line ++ inputs) texts ∧
      (turn look ⟨session, pending⟩ inputs.head?).state.session =
        replay session (texts.map joined) := by
  cases inputs with
  | nil =>
      by_cases empty : pending = []
      · subst empty
        exact ⟨.done, rfl⟩
      · obtain ⟨ended, _⟩ := @turn_submitted look session _ _ _ (submission?_cut empty)
        have stays := (unfinished.open_self empty).stays
        cases stays.symm.trans (ended.symm.trans ends)
  | cons input rest =>
      cases input with
      | line line =>
          by_cases opens : Open (pending ++ [line])
          · obtain ⟨_, goesOn, _⟩ := @turn_continued look session _ _ opens
            cases ends.symm.trans goesOn
          · have submits := submission?_completed opens
            obtain ⟨ended, state⟩ := @turn_submitted look session _ _ _ submits
            have leaves := ended.symm.trans ends
            simp only [List.head?_cons, submits, state, leaves]
            have cuts : Cuts ((pending ++ [line]).map .line ++ rest) [pending ++ [line]] :=
              .quit ⟨pending, line, rfl, unfinished, opens⟩ leaves
            refine ⟨by simpa using cuts, ?_⟩
            simp [replay, leaves]
      | abort => cases ends
      | failure => exact ⟨.failure unfinished, rfl⟩

/-- Any other turn, in front of those that follow. -/
theorem cuts_next (unfinished : Unfinished pending)
    (goesOn : (turn look ⟨session, pending⟩ inputs.head?).ended = false)
    (texts : List (List Text)) :
    let next := (turn look ⟨session, pending⟩ inputs.head?).state
    let more := (submission? pending inputs.head?).toList ++ texts
    Unfinished next.pending ∧
      (Cuts (next.pending.map .line ++ inputs.tail) texts → Cuts (pending.map .line ++ inputs) more ∧
        replay next.session (texts.map joined) = replay session (more.map joined)) := by
  cases inputs with
  | nil =>
      by_cases empty : pending = []
      · subst empty
        cases goesOn
      · have submits := submission?_cut empty
        have stays := (unfinished.open_self empty).stays
        obtain ⟨_, state⟩ := @turn_submitted look session _ _ _ submits
        simp only [List.head?_nil, submits, state, stays]
        refine ⟨unfinished_nil, fun behind => ?_⟩
        cases behind.eq_nil
        refine ⟨by simpa using .ended empty unfinished, ?_⟩
        simp [replay, stays]
  | cons input rest =>
      cases input with
      | line line =>
          by_cases opens : Open (pending ++ [line])
          · obtain ⟨submits, _, state⟩ := @turn_continued look session _ _ opens
            simp only [List.head?_cons, submits, state]
            refine ⟨unfinished.append opens, fun behind => ⟨?_, rfl⟩⟩
            simpa using behind
          · have submits := submission?_completed opens
            obtain ⟨ended, state⟩ := @turn_submitted look session _ _ _ submits
            have stays := ended.symm.trans goesOn
            simp only [List.head?_cons, submits, state, stays]
            refine ⟨unfinished_nil, fun behind => ⟨?_, ?_⟩⟩
            · have cuts := Cuts.text ⟨pending, line, rfl, unfinished, opens⟩ stays behind
              simpa using cuts
            · simp [replay, stays]
      | abort => exact ⟨unfinished_nil, fun behind => ⟨.abort unfinished behind, rfl⟩⟩
      | failure => cases goesOn

end Scripts

theorem Finishes.cuts {look : Look} {state final : State} {inputs : List Input}
    {texts : List (List Text)} {outputs : List Output}
    (finishes : Finishes look state inputs texts outputs final)
    (unfinished : Unfinished state.pending) :
    Cuts (state.pending.map .line ++ inputs) texts ∧
      final.session = replay state.session (texts.map joined) := by
  -- The lines that are pending stand in front of the script that is left.
  induction finishes with
  | ended ends => exact cuts_ended unfinished ends
  | next goesOn behind inductionHypothesis =>
      obtain ⟨unfinished', joins⟩ := cuts_next unfinished goesOn _
      obtain ⟨cuts, session⟩ := inductionHypothesis unfinished'
      obtain ⟨whole, same⟩ := joins cuts
      exact ⟨whole, session.trans same⟩

theorem run_finishes (look : Look) (state : State) (inputs : List Input) :
    ∃ texts, Finishes look state inputs texts (run look state inputs).1 (run look state inputs).2 := by
  induction inputs generalizing state with
  | nil =>
      cases ended : (turn look state none).ended with
      | true =>
          have finishes := @Finishes.ended look state [] ended
          exact ⟨_, by simpa [run, ended] using finishes⟩
      | false =>
          -- The first turn behind the script leaves nothing pending, so the second ends the loop.
          have ended' : (turn look (turn look state none).state none).ended = true := by
            obtain ⟨session, pending⟩ := state
            cases pending with
            | nil => cases ended
            | cons line lines =>
                have submits := submission?_cut (List.cons_ne_nil line lines)
                rw [(turn_submitted submits).2]
                rfl
          have behind := @Finishes.ended look (turn look state none).state [] ended'
          have finishes := @Finishes.next look state _ [] _ _ ended behind
          exact ⟨_, by simpa [run, ended] using finishes⟩
  | cons input rest inductionHypothesis =>
      cases ended : (turn look state (some input)).ended with
      | true =>
          have finishes := @Finishes.ended look state (input :: rest) ended
          exact ⟨_, by simpa [run, ended] using finishes⟩
      | false =>
          obtain ⟨texts, behind⟩ := inductionHypothesis (turn look state (some input)).state
          have finishes := @Finishes.next look state _ (input :: rest) _ _ ended behind
          exact ⟨_, by simpa [run, ended] using finishes⟩

/-- The loop ends, whatever comes in, and it takes exactly the texts into which the script is cut.
A turn that takes no text leaves the session alone and shows a line break at most, and the session
at the end is the one behind these texts. -/
theorem run_cuts (look : Look) (session : Session) (inputs : List Input) :
    (∃ texts, Finishes look ⟨session, []⟩ inputs texts (run look ⟨session, []⟩ inputs).1
        (run look ⟨session, []⟩ inputs).2 ∧
      Cuts inputs texts ∧
      (run look ⟨session, []⟩ inputs).2.session = replay session (texts.map joined)) ∧
    ∀ (session : Session) (pending : List Text) (input : Option Input),
      (∀ lines, submission? pending input = some lines →
        advance look ⟨session, pending⟩ input = submit look session (joined lines)) ∧
      (submission? pending input = none →
        (advance look ⟨session, pending⟩ input).state.session = session ∧
        ∀ shown ∈ (advance look ⟨session, pending⟩ input).output,
          shown = .print [Text.newline]) := by
  constructor
  · obtain ⟨texts, finishes⟩ := run_finishes look ⟨session, []⟩ inputs
    obtain ⟨cuts, replayed⟩ := finishes.cuts unfinished_nil
    exact ⟨texts, finishes, cuts, replayed⟩
  · intro session pending input
    exact ⟨fun lines submits => advance_of_submission submits, advance_of_no_submission⟩

/-- A command to leave stands behind an abort, and what follows it is not read. -/
theorem run_cuts_quit :
    let look : Look := ⟨utf8 "> ", false, false⟩
    let session := Session.start .none
    let inputs : List Input := [.abort, .line (utf8 " :Q"), .failure]
    submission? [] (some .abort) = none ∧
      (advance look ⟨session, []⟩ (some .abort)).state.session = session ∧
      submission? [] (some (.line (utf8 " :Q"))) = some [utf8 " :Q"] ∧
      advance look ⟨session, []⟩ (some (.line (utf8 " :Q"))) = submit look session (utf8 " :Q") ∧
      ∃ texts, Cuts inputs texts ∧
        (run look ⟨session, []⟩ inputs).2.session = replay session (texts.map joined) := by
  intro look session inputs
  obtain ⟨⟨texts, _, cuts, replayed⟩, turns⟩ := run_cuts look session inputs
  have submits : submission? [] (some (.line (utf8 " :Q"))) = some [utf8 " :Q"] := by
    decide +kernel
  exact ⟨rfl, ((turns session [] (some .abort)).2 rfl).1, submits,
    (turns session [] (some (.line (utf8 " :Q")))).1 _ submits, texts, cuts, replayed⟩

end Repl

end Parlance
