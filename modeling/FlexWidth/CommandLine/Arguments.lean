/-!
# Command-line arguments

What the words after the program's name ask for. They are read from left to
right; the first of a mistake, a call for help and a call for the version
decides, and only then does a missing file count.
-/

namespace FlexWidth.CommandLine

/-- What to write for an accepted program. -/
inductive Emit where
  | ir
  | obj
deriving DecidableEq, Repr

/-- The kind of output of a given name. -/
def Emit.ofName? (name : String) : Option Emit :=
  match name with
  | "ir" => some .ir
  | "obj" => some .obj
  | _ => none

/-- The options that take a value. -/
inductive ValueOption where
  | output
  | emit
  | moduleName
deriving DecidableEq, Repr

/-- What the words so far have set. -/
structure Settings where
  input : Option String
  output : Option String
  emit : Option Emit
  moduleName : Option String
  dumpTree : Bool
deriving DecidableEq, Repr

/-- What a run is asked to do. -/
structure Options where
  input : String
  output : Option String
  emit : Emit
  moduleName : Option String
  dumpTree : Bool
deriving DecidableEq, Repr

/-- What the command line asks for. -/
inductive Request where
  | longHelp
  | shortHelp
  | version
  /-- The words make no sense. -/
  | misuse
  | compile (options : Options)
deriving DecidableEq, Repr

/-- What one word means by itself. -/
inductive Word where
  /-- No option follows. -/
  | endOfOptions
  | longHelp
  | shortHelp
  | version
  | dumpTree
  /-- An option whose value is the next word. -/
  | awaiting (option : ValueOption)
  /-- An option with its value. -/
  | setting (option : ValueOption) (value : String)
  | file (path : String)
  | unknown
deriving DecidableEq, Repr

namespace Word

/-- The option of a given long name. -/
def longOption? (name : String) : Option ValueOption :=
  match name with
  | "output" => some .output
  | "emit" => some .emit
  | "module-name" => some .moduleName
  | _ => none

/-- An option in its long form, without the dashes: a name, and a value after an
equals sign. -/
def ofLong (text : List Char) : Word :=
  let name := String.ofList (text.takeWhile (· != '='))
  match text.dropWhile (· != '=') with
  | [] =>
    match name with
    | "help" => .longHelp
    | "version" => .version
    | "dump-ast" => .dumpTree
    | _ =>
      match longOption? name with
      | some option => .awaiting option
      | none => .unknown
  | _ :: value =>
    match longOption? name with
    | some option => .setting option (String.ofList value)
    | none => .unknown

/-- Options in their short form, without the dash. The first letter decides: it
ends the run, or it takes the letters after it, less an equals sign, for its
value. -/
def ofShort : List Char → Word
  | 'h' :: _ => .shortHelp
  | 'V' :: _ => .version
  | ['o'] => .awaiting .output
  | 'o' :: '=' :: value => .setting .output (String.ofList value)
  | 'o' :: value => .setting .output (String.ofList value)
  | _ => .unknown

/-- The meaning of a word. A lone dash is a file. -/
def ofText (text : String) : Word :=
  match text.toList with
  | ['-', '-'] => .endOfOptions
  | '-' :: '-' :: long => ofLong long
  | ['-'] => .file text
  | '-' :: short => ofShort short
  | _ => .file text

end Word

namespace Settings

/-- Nothing set. -/
def initial : Settings := ⟨none, none, none, none, false⟩

/-- Sets the input file, once; its path is not empty. -/
def setInput? (settings : Settings) (path : String) : Option Settings :=
  if settings.input.isSome || path.isEmpty then none
  else some { settings with input := some path }

/-- Sets an option, once. The path of the output is not empty. -/
def set? (settings : Settings) (option : ValueOption) (value : String) : Option Settings :=
  match option with
  | .output =>
    if settings.output.isSome || value.isEmpty then none
    else some { settings with output := some value }
  | .emit =>
    if settings.emit.isSome then none
    else (Emit.ofName? value).map fun emit => { settings with emit := some emit }
  | .moduleName =>
    if settings.moduleName.isSome then none else some { settings with moduleName := some value }

/-- Asks for the tree, once. -/
def setDumpTree? (settings : Settings) : Option Settings :=
  if settings.dumpTree then none else some { settings with dumpTree := true }

/-- The request of settings after the last word; an input file is required. -/
def request (settings : Settings) : Request :=
  match settings.input with
  | some input =>
    .compile
      { input := input
        output := settings.output
        emit := settings.emit.getD .ir
        moduleName := settings.moduleName
        dumpTree := settings.dumpTree }
  | none => .misuse

end Settings

/-- The request of words that are all files. -/
def filesRequest (settings : Settings) : List String → Request
  | [] => settings.request
  | path :: rest =>
    match settings.setInput? path with
    | some settings => filesRequest settings rest
    | none => .misuse

/-- The request of words after those that have led to some settings. -/
def requestFrom (settings : Settings) : List String → Request
  | [] => settings.request
  | word :: rest =>
    match Word.ofText word with
    | .endOfOptions => filesRequest settings rest
    | .longHelp => .longHelp
    | .shortHelp => .shortHelp
    | .version => .version
    | .dumpTree =>
      match settings.setDumpTree? with
      | some settings => requestFrom settings rest
      | none => .misuse
    | .awaiting option =>
      match rest with
      | [] => .misuse
      | value :: rest =>
        match Word.ofText value with
        | .file value =>
          match settings.set? option value with
          | some settings => requestFrom settings rest
          | none => .misuse
        | _ => .misuse
    | .setting option value =>
      match settings.set? option value with
      | some settings => requestFrom settings rest
      | none => .misuse
    | .file path =>
      match settings.setInput? path with
      | some settings => requestFrom settings rest
      | none => .misuse
    | .unknown => .misuse

/-- The request of a command line. -/
def Request.ofWords (words : List String) : Request := requestFrom Settings.initial words

end FlexWidth.CommandLine
