/-!
# Help texts

What the command line says about itself.
-/

namespace FlexWidth.CommandLine

/-- A text of lines, each ending in a newline. -/
def textOfLines (lines : List String) : String := String.join (lines.map (· ++ "\n"))

/-- The name and version of the program. -/
def versionText : String := textOfLines ["paracl 0.1.0"]

/-- The usage line. -/
def usageText : String := textOfLines ["Usage: paracl [OPTIONS] <FILE>"]

/-- The full help. -/
def longHelpText : String :=
  textOfLines
    ["Compiles a ParaCL source file to LLVM IR or a native object file",
      "",
      "Usage: paracl [OPTIONS] <FILE>",
      "",
      "Arguments:",
      "  <FILE>",
      "          Input source file",
      "",
      "Options:",
      "  -o, --output <FILE>",
      "          Output file (IR goes to stdout when omitted)",
      "",
      "      --emit <EMIT>",
      "          What to emit",
      "",
      "          Possible values:",
      "          - ir:  Textual LLVM IR",
      "          - obj: Native object file for the host",
      "          ",
      "          [default: ir]",
      "",
      "      --dump-ast",
      "          Print the typed AST before emitting",
      "",
      "      --module-name <NAME>",
      "          Name of the LLVM module (defaults to the input file stem)",
      "",
      "  -h, --help",
      "          Print help (see a summary with '-h')",
      "",
      "  -V, --version",
      "          Print version"]

/-- The short help. -/
def shortHelpText : String :=
  textOfLines
    ["Compiles a ParaCL source file to LLVM IR or a native object file",
      "",
      "Usage: paracl [OPTIONS] <FILE>",
      "",
      "Arguments:",
      "  <FILE>  Input source file",
      "",
      "Options:",
      "  -o, --output <FILE>       Output file (IR goes to stdout when omitted)",
      "      --emit <EMIT>         What to emit [default: ir] [possible values: ir, obj]",
      "      --dump-ast            Print the typed AST before emitting",
      "      --module-name <NAME>  Name of the LLVM module (defaults to the input file stem)",
      "  -h, --help                Print help (see more with '--help')",
      "  -V, --version             Print version"]

end FlexWidth.CommandLine
