/-!
# Reading files

A directory of files as the command line sees it, and why a path may not lead to
a text. Nothing is known of what lies outside the directory but that there are
directories above it.
-/

namespace FlexWidth.CommandLine

/-- Why a path does not lead to a text. -/
inductive ReadError where
  | notFound
  | notDirectory
  | isDirectory
  | invalidText
  /-- Any other reason that a system gives. -/
  | other (reason : String)
deriving DecidableEq, Repr

/-- The reason in words. -/
def ReadError.reason : ReadError → String
  | notFound => "No such file or directory (os error 2)"
  | notDirectory => "Not a directory (os error 20)"
  | isDirectory => "Is a directory (os error 21)"
  | invalidText => "stream did not contain valid UTF-8"
  | other reason => reason

/-- The text of a file's bytes. -/
def decodeText (content : ByteArray) : Except ReadError String :=
  match String.fromUTF8? content with
  | some text => .ok text
  | none => .error .invalidText

/-- The working directory of a run: its files and their contents. -/
structure Directory where
  files : List (String × ByteArray)

/-- Where a part of a path leads. -/
inductive Place where
  /-- The working directory. -/
  | here
  /-- A directory of which nothing else is known. -/
  | outside
  | file (content : ByteArray)

namespace Directory

/-- Where the next name of a path leads. -/
def follow (directory : Directory) (place : Place) (name : String) : Except ReadError Place :=
  match place with
  | .file _ => .error .notDirectory
  | .here =>
    if name = "" ∨ name = "." then .ok .here
    else if name = ".." then .ok .outside
    else
      match directory.files.lookup name with
      | some content => .ok (.file content)
      | none => .error .notFound
  | .outside =>
    if name = "" ∨ name = "." ∨ name = ".." then .ok .outside else .error .notFound

/-- Where a path leads. -/
def find (directory : Directory) (path : String) : Except ReadError Place :=
  let start : Place := if path.startsWith "/" then .outside else .here
  (path.splitOn "/").foldlM directory.follow start

/-- The text of the file that a path leads to. -/
def read (directory : Directory) (path : String) : Except ReadError String := do
  match ← directory.find path with
  | .file content => decodeText content
  | .here | .outside => .error .isDirectory

end Directory

end FlexWidth.CommandLine
