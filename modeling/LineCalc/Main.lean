import LineCalc.Console.Run

namespace LineCalc.Console

/-- The rest of a line of which some bytes have been taken, the latest first. -/
partial def restOfLine (input : IO.FS.Stream) (taken : List UInt8) :
    IO (Option (List UInt8)) := do
  match (← input.read 1).toList with
  | [] => return if taken.isEmpty then none else some taken.reverse
  | byte :: _ =>
    let taken := byte :: taken
    if byte = 10 then return some taken.reverse else restOfLine input taken

/-- The bytes of the next line with its line feed, or `none` at the end of the input. -/
def nextLine (input : IO.FS.Stream) : IO (Option (List UInt8)) := restOfLine input []

/-- Writes what has happened to the log, as far as it calls for attention. -/
def writeLog (log : IO.FS.Stream) (events : List Event) : IO Unit :=
  (logLines .warn events).forM log.putStrLn

/-- Feeds a session until a response stops it or the input ends. -/
partial def converse (o : Options) (input output log : IO.FS.Stream) (s : Session) :
    IO UInt32 := do
  match ← nextLine input with
  | none => return 0
  | some bytes =>
    match respond s (decodeLine bytes) with
    | .stop exitCode => return exitCode.toUInt32
    | .reply e =>
      writeLog log e.events
      output.putStr (answer o e ++ o.promptText)
      output.flush
      converse o input output log e.session

end LineCalc.Console

open LineCalc.Console in
/-- A session on standard input and output, with the log on standard error. -/
def main (arguments : List String) : IO UInt32 := do
  match Request.ofArguments arguments with
  | .help => IO.print helpText; return 0
  | .version => IO.print versionText; return 0
  | .misuse cause => IO.eprintln ("error: " ++ cause.message); return 2
  | .run o =>
    let output ← IO.getStdout
    output.putStr o.promptText
    output.flush
    converse o (← IO.getStdin) output (← IO.getStderr) .new
