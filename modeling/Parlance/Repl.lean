import Parlance.Session
import Parlance.Text.Trim

namespace Parlance.Repl

/-!
The interactive loop. Lines are read until they make a text that is not broken
off, and the text is run in the session or obeyed as a command. The loop takes
one input at a time and answers with what is shown, so that it can be followed
without a terminal.
-/

/-- What comes from the terminal. After the last input it is at its end. -/
inductive Input where
  | line (text : Text)
  /-- The user gives up the text that is being read. -/
  | abort
  /-- The terminal cannot be read any more. -/
  | failure
  deriving DecidableEq

/-- What the loop shows: a prompt, one write to either channel, or an entry for
the history. -/
inductive Output where
  | prompt (text : Text)
  | print (text : Text)
  | report (text : Text)
  | remember (text : Text)
  deriving DecidableEq

structure Look where
  prompt : Text
  pretty : Bool
  remembers : Bool

structure State where
  session : Session
  pending : List Text

def State.start (limits : Limits) (capacity : Nat := Limits.usualCapacity) : State :=
  ⟨.start limits capacity, []⟩

structure Step where
  output : List Output
  state : State
  ended : Bool

def file : Text :=
  utf8 "<repl>"

def banner : Text :=
  utf8 "uytin REPL. Type :help for commands, :quit to exit.\n"

def continuation : Text :=
  utf8 "...    "

def joined (lines : List Text) : Text :=
  Text.join [Text.newline] lines

def isCommand (text : Text) : Bool :=
  Text.hasPrefix (utf8 ":") (Text.trim text)

def isIncomplete (text : Text) : Bool :=
  match parse file text with
  | .error error => error.incomplete
  | .ok _ => false

/-- Whether another line is read behind `line`. A blank line ends the text in
any case. -/
def continues (pending : List Text) (line : Text) : Bool :=
  let text := joined (pending ++ [line])
  !isCommand text && isIncomplete text && !Text.isWhite line

/-- A text on one line, as the history keeps it. -/
def historyEntry (text : Text) : Text :=
  text.map fun b => if b = Text.newline then Text.byte ' ' else b

def errorLine (pretty : Bool) (diagnostic : Diagnostic) : Text :=
  if pretty then utf8 "error[" ++ diagnostic.code ++ utf8 "]: " ++ diagnostic.message
  else diagnostic.code ++ utf8 ": " ++ diagnostic.message

def line (text : Text) : Text :=
  text ++ [Text.newline]

/-- Runs a text in the session. What it prints is shown first, then its value
or the reason why it stopped. -/
def evaluate (look : Look) (session : Session) (text : Text) : List Output × Session :=
  let (result, after) := session.run .unlimited .live file text
  let failed (diagnostic : Diagnostic) : Output :=
    .report (line (errorLine look.pretty diagnostic))
  match result with
  | .error error => ([failed error.diagnostic], after)
  | .ok report =>
    let ending :=
      match report.outcome with
      | .error halt => halt.diagnostic?.toList.map failed
      | .ok completion =>
        if completion.value.isNothing then [] else [.print (line completion.value.text)]
    (report.written.map .print ++ ending, after)

def commandHelp : Text :=
  utf8 ":quit  exit\n:reset clear variables and functions\n:env   show the session as JSON\n"

/-- Obeys a command, in either case. Without a session the loop is left. -/
def obey (session : Session) (command : Text) : List Output × Option Session :=
  let name := Text.lower command
  if name = utf8 ":quit" || name = utf8 ":q" || name = utf8 ":exit" then ([], none)
  else if name = utf8 ":reset" then
    ([.print (utf8 "session cleared\n")], some session.reset)
  else if name = utf8 ":env" then ([.print (line session.environment.json)], some session)
  else if name = utf8 ":help" then ([.print commandHelp], some session)
  else
    ([.report (utf8 "unknown command " ++ command ++ utf8 ". Type :help for commands.\n")],
      some session)

/-- Takes a text that has been read. Blank texts are passed over. -/
def submit (look : Look) (session : Session) (text : Text) : Step :=
  let trimmed := Text.trim text
  if trimmed.isEmpty then ⟨[], ⟨session, []⟩, false⟩
  else if Text.hasPrefix (utf8 ":") trimmed then
    match obey session trimmed with
    | (output, some after) => ⟨output, ⟨after, []⟩, false⟩
    | (output, none) => ⟨output, ⟨session, []⟩, true⟩
  else
    let (output, after) := evaluate look session text
    ⟨(if look.remembers then [.remember (historyEntry text)] else []) ++ output, ⟨after, []⟩, false⟩

/-- What an input does; `none` is the end of the input. A text that the end
cuts off is still taken. -/
def advance (look : Look) (state : State) : Option Input → Step
  | some (.line line) =>
    if continues state.pending line then
      ⟨[], { state with pending := state.pending ++ [line] }, false⟩
    else submit look state.session (joined (state.pending ++ [line]))
  | some .abort => ⟨[], { state with pending := [] }, false⟩
  | some .failure => ⟨[.print [Text.newline]], { state with pending := [] }, true⟩
  | none =>
    if state.pending.isEmpty then ⟨[.print [Text.newline]], state, true⟩
    else submit look state.session (joined state.pending)

def promptFor (look : Look) (state : State) : Text :=
  if state.pending.isEmpty then look.prompt else continuation

def turn (look : Look) (state : State) (input : Option Input) : Step :=
  let step := advance look state input
  { step with output := .prompt (promptFor look state) :: step.output }

/-- The turns of a whole script. At its end one text at most is still cut off,
so two turns are enough. -/
def run (look : Look) (state : State) : List Input → List Output × State
  | [] =>
    let first := turn look state none
    if first.ended then (first.output, first.state)
    else
      let second := turn look first.state none
      (first.output ++ second.output, second.state)
  | input :: rest =>
    let step := turn look state (some input)
    if step.ended then (step.output, step.state)
    else
      let (output, final) := run look step.state rest
      (step.output ++ output, final)

end Parlance.Repl
