import FlexWidth.CommandLine.Arguments
import FlexWidth.CommandLine.Directory
import FlexWidth.CommandLine.Help
import FlexWidth.Frontend
import FlexWidth.Tree.Outline

/-!
# Runs of the command line

A run ends in a response: what is written to the two output streams, and the
exit code. The command line checks programs; what becomes of an accepted one is
left to its caller.
-/

namespace FlexWidth.CommandLine

/-- How a run ends. -/
inductive Response where
  | longHelp
  | shortHelp
  | version
  | misuse
  /-- The input file cannot be read. -/
  | unreadable (path : String) (error : ReadError)
  /-- The program is refused, or the front end breaks down. -/
  | failed (failure : Failure)
  /-- The program is accepted. -/
  | accepted (options : Options) (checked : CheckedProgram)

namespace Response

/-- The response to a source text, or to the failure to read one. -/
def ofSource (options : Options) : Except ReadError String → Response
  | .ok source =>
    match checkSource source with
    | .ok checked => accepted options checked
    | .error failure => failed failure
  | .error error => unreadable options.input error

/-- The exit code. -/
def code : Response → Nat
  | longHelp | shortHelp | version | accepted _ _ => 0
  | unreadable _ _ | failed _ => 1
  | misuse => 2

/-- What is written to the standard output. -/
def output : Response → String
  | longHelp => longHelpText
  | shortHelp => shortHelpText
  | version => versionText
  | accepted options checked =>
    if options.dumpTree then checked.body.dump checked.types.describe? else ""
  | misuse | unreadable _ _ | failed _ => ""

/-- What is written to the standard error stream. -/
def errors : Response → String
  | misuse => usageText
  | unreadable path error =>
    "Error: failed to read " ++ path ++ "\n\nCaused by:\n    " ++ error.reason ++ "\n"
  | failed (.refused diagnostic) => "Error: " ++ diagnostic.summary ++ "\n"
  | failed (.broken _) => "Error: internal fault\n"
  | longHelp | shortHelp | version | accepted _ _ => ""

end Response

/-- The response to a request, given how paths are read. -/
def respond (read : String → Except ReadError String) : Request → Response
  | .longHelp => .longHelp
  | .shortHelp => .shortHelp
  | .version => .version
  | .misuse => .misuse
  | .compile options => .ofSource options (read options.input)

/-- A run in a directory. -/
def run (directory : Directory) (words : List String) : Response :=
  respond directory.read (Request.ofWords words)

end FlexWidth.CommandLine
