import Parlance.Text.Quoted
import Parlance.Text.Trim
import Parlance.Token

namespace Parlance

/-! The reference that is shown on request: a summary, eight topics and the list of keywords. -/

inductive Topic where
  | language
  | types
  | functions
  | flow
  | budget
  | diagnostics
  | config
  | examples
  deriving DecidableEq

namespace Topic

def all : List Topic :=
  [language, types, functions, flow, budget, diagnostics, config, examples]

def name : Topic → Text
  | language => utf8 "syntax"
  | types => utf8 "types"
  | functions => utf8 "functions"
  | flow => utf8 "flow"
  | budget => utf8 "budget"
  | diagnostics => utf8 "diagnostics"
  | config => utf8 "config"
  | examples => utf8 "examples"

def page (lines : List String) : Text :=
  lines.flatMap fun line => utf8 line ++ [Text.newline]

def content : Topic → Text
  | language => page [
    "Syntax",
    "",
    "A program is a sequence of statements. Keywords are upper case and",
    "identifiers are lower case ([a-z_][a-z0-9_]*); mixed case is an error.",
    "",
    "  IM           statement terminator, optional after ME ... MAY blocks and TRA",
    "  ME / MAY     open / close a block",
    "  NOILIENTUC   print",
    "  NEU / KOTHI  if / else",
    "  THE          function declaration",
    "  TRA          return",
    "",
    "Operators, loosest first:",
    "  =                                   assignment (right associative)",
    "  UYTIN ITHON NHIEUHON ITBANG NHIEUBANG   == < > <= >=",
    "  + -",
    "  * /",
    "",
    "Literals: integers (123) and single-quoted strings ('text')."]
  | types => page [
    "Types",
    "",
    "  integer   64-bit signed; / truncates toward zero",
    "  string    'text'; + concatenates two strings",
    "  boolean   result of a comparison, prints as true / false",
    "  nothing   value of a statement that produces none",
    "",
    "Arithmetic needs integers. Ordered comparisons need two integers or two",
    "strings. UYTIN compares any two values of the same type. Anything else is",
    "E_TYPE."]
  | functions => page [
    "Functions",
    "",
    "  THE name(p1, p2) ME body MAY",
    "",
    "A declaration binds name for the rest of the session; declaring it again",
    "replaces it. Calls must match the parameter count (E_ARITY).",
    "",
    "Arguments are evaluated in the caller. The body runs in a copy of the",
    "caller's variables with the parameters added, so it can read caller",
    "variables but its assignments and nested declarations disappear when it",
    "returns.",
    "",
    "The call's value is the TRA value, or the value of the last statement",
    "when the body finishes without TRA."]
  | flow => page [
    "Control flow",
    "",
    "  NEU cond ME ... MAY",
    "  NEU cond ME ... MAY KOTHI ME ... MAY",
    "  NEU cond ME ... MAY KOTHI NEU cond ME ... MAY",
    "",
    "The condition must be a boolean or an integer (nonzero is true).",
    "Branches share the surrounding variables.",
    "",
    "TRA expr stops the enclosing function. At top level it ends the program",
    "and its value becomes the program result."]
  | budget => page [
    "Budget",
    "",
    "Runs are bounded by three limits, each disabled by 0:",
    "",
    "  max_call_depth   nested function calls (default 10000)",
    "  max_steps        statements executed",
    "  time_ms          wall-clock time",
    "",
    "Exceeding a limit stops the program with E_BUDGET. Set them in",
    ".uytin.toml under [limits]."]
  | diagnostics => page [
    "Diagnostics",
    "",
    "Errors stop a run; warnings come from uytin check and never do.",
    "",
    "  E_LEX E_SYNTAX                       source cannot be read",
    "  E_UNDEFINED_VARIABLE E_UNDEFINED_FUNCTION",
    "  E_INVALID_ASSIGNMENT_TARGET E_ARITY E_TYPE E_DIVISION_BY_ZERO",
    "  E_BUDGET E_CANCELLED E_IO E_CONFIG E_INTERNAL",
    "  W_UNREACHABLE W_ARITY W_UNKNOWN_FN W_UNBOUND_VAR",
    "",
    "Exit codes: 0 ok, 1 usage or I/O, 2 lex/syntax, 4 runtime.",
    "Pass --pretty for human-readable output instead of JSON."]
  | config => page [
    "Configuration",
    "",
    "The first file found wins:",
    "",
    "  ./.uytin.toml",
    "  ./.uytin.yaml",
    "  ~/.uytin/config.toml",
    "",
    "  [limits]",
    "  max_call_depth = 10000",
    "  max_steps = 0",
    "  time_ms = 0",
    "",
    "  [output]",
    "  pretty = false",
    "",
    "  [repl]",
    "  history_file = \"~/.uytin/history\"",
    "  prompt = \"uytin> \""]
  | examples => page [
    "Examples",
    "",
    "  THE fact(n) ME",
    "    NEU n ITBANG 1 ME TRA 1 MAY",
    "    TRA n * fact(n - 1)",
    "  MAY",
    "  NOILIENTUC fact(10) IM",
    "",
    "  greeting = 'xin ' + 'chao' IM",
    "  NOILIENTUC greeting IM"]

inductive Fault where
  | unknown (query : Text)
  | ambiguous (query : Text) (matching : List Topic)

def listed (topics : List Topic) : Text :=
  Text.join (utf8 ", ") (topics.map name)

def Fault.message : Fault → Text
  | unknown query =>
    utf8 "unknown help topic " ++ Text.doubleQuoted query ++ utf8 " (topics: " ++ listed all ++
      utf8 ")"
  | ambiguous query matching =>
    utf8 "ambiguous help topic " ++ Text.doubleQuoted query ++ utf8 " matches " ++ listed matching

/-- The topic of that name, or the only one whose name starts so. Case and
blanks around the query do not count. -/
def find (query : Text) : Except Fault Topic :=
  let wanted := Text.lower (Text.trim query)
  match all.find? (·.name == wanted) with
  | some topic => .ok topic
  | none =>
    match all.filter fun topic => !wanted.isEmpty && Text.hasPrefix wanted topic.name with
    | [] => .error (.unknown query)
    | [topic] => .ok topic
    | matching => .error (.ambiguous query matching)

end Topic

def quickReference : Text :=
  Topic.page [
    "uytin v0.1 quick reference",
    "",
    "  x = 1 + 2 IM                 assign (IM ends a statement)",
    "  NOILIENTUC x IM              print a value and a newline",
    "  THE add(a, b) ME TRA a + b MAY",
    "                               declare a function; TRA returns",
    "  NEU x ITHON 3 ME ... MAY KOTHI ME ... MAY",
    "                               if / else",
    "  // comment                   runs to end of line",
    "",
    "Commands:",
    "  uytin run <file>             execute a program",
    "  uytin check <file>           parse and lint without running",
    "  uytin fmt <file>             print canonical source",
    "  uytin ast <file>             print the syntax tree",
    "  uytin repl                   interactive session",
    "  uytin config                 print the effective configuration",
    "  uytin help <topic>           show a topic",
    "",
    "Topics: syntax, types, functions, flow, budget, diagnostics, config, examples"]

def keywordIndex : Text :=
  let words := (Keyword.all.map Keyword.spelling).mergeSort fun a b => !Text.before b a
  utf8 "Keywords:\n" ++
    words.flatMap (fun word => utf8 "  " ++ word ++ utf8 "\n") ++
    utf8 "Total: " ++ Text.ofNat words.length ++ utf8 " keywords\n"

end Parlance
