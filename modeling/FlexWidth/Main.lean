import FlexWidth.CommandLine.Run

/-!
# The program

Reads the file named on the command line and writes the response.
-/

namespace FlexWidth.CommandLine

/-- The reason for which the system refuses to read a file. -/
def readErrorOf : IO.Error → ReadError
  | .noFileOrDirectory _ _ _ => .notFound
  | .inappropriateType _ 20 _ => .notDirectory
  | .inappropriateType _ 21 _ => .isDirectory
  | error => .other (toString error)

/-- The text of a file of the system. -/
def readText (path : String) : IO (Except ReadError String) := do
  try
    let content ← IO.FS.readBinFile path
    return decodeText content
  catch error => return .error (readErrorOf error)

/-- The response to a request, reading from the system. -/
def answer : Request → IO Response
  | .compile options => do
    return .ofSource options (← readText options.input)
  | request => return respond (fun _ => .error .notFound) request

end FlexWidth.CommandLine

open FlexWidth.CommandLine in
/-- Runs the command line. -/
def main (words : List String) : IO UInt32 := do
  let response ← answer (Request.ofWords words)
  IO.print response.output
  IO.eprint response.errors
  return response.code.toUInt32
