/-!
Contract: what a command leaves behind.

This module owns the exit code and the two outputs of a command, and the text
of a failure. A failure may stand in a context, which is then named first, with
every line of the cause indented below it.
-/

namespace Precis.Command

/-- What a command leaves behind. -/
structure Report where
  exitCode : UInt8
  output : String
  diagnostics : String
deriving DecidableEq, Repr

def failureText (message : String) : String :=
  "Error: " ++ message ++ "\n"

/-- A text with four spaces before each of its lines. -/
def indented (text : String) : String :=
  String.intercalate "\n" ((text.splitOn "\n").map fun line => "    " ++ line)

def failureTextIn (context cause : String) : String :=
  failureText (context ++ "\n\nCaused by:\n" ++ indented cause)

def Report.failed (diagnostics failure : String) : Report :=
  { exitCode := 1, output := "", diagnostics := diagnostics ++ failure }

def Report.succeeded (output diagnostics : String) : Report :=
  { exitCode := 0, output, diagnostics }

end Precis.Command
