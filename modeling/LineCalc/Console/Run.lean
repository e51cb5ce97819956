import LineCalc.Console.Lines
import LineCalc.Console.Options
import LineCalc.Session

namespace LineCalc.Console

/-- What is shown of a line, in whole lines. -/
def answer (o : Options) (e : Step) : String :=
  if o.echo then
    "Token Stream: " ++ "  ".intercalate e.report.tokens ++ "\n" ++
      e.report.text ++ "\n" ++
      "Symbol table contains " ++ e.session.table.text ++ "\n"
  else
    match e.report.outcome with
    | .value value => Number.write value ++ "\n"
    | .done => ""
    | .refused fault => "Error, " ++ fault.message ++ "\n"

/-- How a run goes on after a line. -/
inductive Response where
  /-- It ends with an exit code. -/
  | stop (exitCode : Nat)
  /-- It shows what the line has come to, and waits for the next line. -/
  | reply (e : Step)

/-- A line without a text ends the run as a failure, a blank line ends it, and any other line is fed
to the session. -/
def respond (s : Session) : Option String → Response
  | none => .stop 1
  | some line => if Text.isBlankText line then .stop 0 else .reply (s.feed line)

/-- All that a run shows, and its exit code. -/
structure Transcript where
  output : String
  exitCode : Nat
deriving DecidableEq, Repr

/-- The rest of a run that has shown some output so far. -/
def transcriptFrom (o : Options) (s : Session) (shown : String) :
    List (Option String) → Transcript
  | [] => ⟨shown, 0⟩
  | line :: later =>
    match respond s line with
    | .stop exitCode => ⟨shown, exitCode⟩
    | .reply e => transcriptFrom o e.session (shown ++ (answer o e ++ o.promptText)) later

/-- A run over lines, from a new session. -/
def transcript (o : Options) (lines : List (Option String)) : Transcript :=
  transcriptFrom o .new o.promptText lines

/-- A run over an input of bytes. -/
def run (o : Options) (input : List UInt8) : Transcript :=
  transcript o ((splitLines input).map decodeLine)

/-- The answer to a request for help. -/
def helpText : String :=
  "Evaluates one arithmetic statement per line, keeping variables between lines\n\n" ++
  "Usage: stmt_calc [OPTIONS]\n\n" ++
  "Options:\n" ++
  "      --prompt <PROMPT>  Text printed before each statement is read [default: \"> \"]\n" ++
  "  -e, --echo             Print the token stream, the read/un-read split and the symbol table\n" ++
  "  -q, --quiet            Do not print the prompt, for piped input\n" ++
  "  -h, --help             Print help\n" ++
  "  -V, --version          Print version\n"

/-- The answer to a request for the version. -/
def versionText : String := "stmt_calc 0.1.0\n"

/-- The whole command line: arguments and input to output and exit code. -/
def command (arguments : List String) (input : List UInt8) : Transcript :=
  match Request.ofArguments arguments with
  | .run o => run o input
  | .help => ⟨helpText, 0⟩
  | .version => ⟨versionText, 0⟩
  | .misuse _ => ⟨"", 2⟩

end LineCalc.Console
