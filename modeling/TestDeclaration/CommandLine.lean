import TestDeclaration.Run

/-!
# The command line

The program takes at most one file and two switches. It runs the file and prints what the run
prints; the exit code says whether the file could be read and declares a plan. Failing tests do
not change the exit code.
-/

namespace TestDeclaration.CommandLine

/-- What the user asks for. -/
structure Options where
  file? : Option String
  printTokens : Bool
  verbose : Bool
  deriving DecidableEq, Repr

/-- What the arguments of the program mean. -/
inductive Request where
  | help
  | version
  | run (options : Options)
  deriving DecidableEq, Repr

/-- Arguments that mean nothing. -/
inductive UsageError where
  | unknownFlag (argument : String)
  | repeatedFlag (argument : String)
  | secondFile (argument : String)
  | emptyFile
  deriving DecidableEq, Repr

namespace UsageError

/-- The wording of a usage error. -/
def message : UsageError → String
  | .unknownFlag argument => "unexpected argument '" ++ argument ++ "' found"
  | .repeatedFlag argument => "the argument '" ++ argument ++ "' cannot be used multiple times"
  | .secondFile argument => "unexpected argument '" ++ argument ++ "' found"
  | .emptyFile => "a value is required for '[FILENAME]' but none was supplied"

end UsageError

/-- Take an argument as the file. -/
def withFile (o : Options) (name : String) : Except UsageError Options :=
  if o.file?.isSome then .error (.secondFile name)
  else if name.isEmpty then .error .emptyFile
  else .ok { o with file? := some name }

/-- Take all arguments as files. -/
def withFiles (o : Options) : List String → Except UsageError Request
  | [] => .ok (.run o)
  | name :: rest => do withFiles (← withFile o name) rest

/-- Whether an argument is a flag: it starts with a dash and has more than that. -/
def isFlag (argument : String) : Bool := "-".isPrefixOf argument && argument != "-"

/-- Read the arguments behind those that gave `o`. The first that asks for help or for the
version, or means nothing, decides. Behind two dashes there are files only. -/
def parseFrom (o : Options) : List String → Except UsageError Request
  | [] => .ok (.run o)
  | argument :: rest =>
    if argument = "--" then withFiles o rest
    else if argument = "--help" ∨ "-h".isPrefixOf argument then .ok .help
    else if argument = "--version" ∨ "-V".isPrefixOf argument then .ok .version
    else if argument = "--printtokens" then
      if o.printTokens then .error (.repeatedFlag argument)
      else parseFrom { o with printTokens := true } rest
    else if argument = "--verbose" then
      if o.verbose then .error (.repeatedFlag argument)
      else parseFrom { o with verbose := true } rest
    else if isFlag argument then .error (.unknownFlag argument)
    else do parseFrom (← withFile o argument) rest

/-- Read all arguments. -/
def parse (arguments : List String) : Except UsageError Request :=
  parseFrom ⟨none, false, false⟩ arguments

/-- Why a file cannot be read as text. -/
inductive ReadError where
  | notFound
  | unreadable
  deriving DecidableEq, Repr

/-- What the program prints, and its exit code. -/
structure Response where
  exitCode : UInt32
  printed : List String
  errors : List String
  deriving DecidableEq, Repr

/-- The greeting of a program that is given no file. -/
def welcome : String :=
  "Thanks for checking out the TDL test interpreter! " ++
    "Supply a test declaration file to begin testing."

/-- The name and version of the program. -/
def versionText : String := "tdl 0.1.0"

/-- How to use the program. -/
def helpText : List String :=
  ["Runs the test cases declared in a TDL file and reports the results",
    "",
    "Usage: tdl [OPTIONS] [FILENAME]",
    "",
    "Arguments:",
    "  [FILENAME]  Test declaration file, relative to the current directory",
    "",
    "Options:",
    "      --printtokens  Print the token stream before parsing",
    "      --verbose      Also render lexer and parser errors as annotated reports on stderr",
    "  -h, --help         Print help",
    "  -V, --version      Print version"]

/-- A file name behind the directory that it is relative to. -/
def joinPath (directory name : String) : String :=
  if "/".isPrefixOf name then name
  else if directory.endsWith "/" then directory ++ name
  else directory ++ "/" ++ name

/-- Run a file that was read from a path, or say why it was not read. -/
def runFile (o : Options) (path : String) (content : Except ReadError String)
    (now : Timestamp) : Response :=
  match content with
  | .error .notFound => ⟨1, ["File \"" ++ path ++ "\" not found"], []⟩
  | .error .unreadable => ⟨1, ["File \"" ++ path ++ "\" could not be opened"], []⟩
  | .ok source =>
    let transcript := Run.transcript .standard .initial o.printTokens now source
    match transcript.result with
    | .ok _ => ⟨0, transcript.printed, []⟩
    | .error e =>
      ⟨1, transcript.printed ++ [e.text], if o.verbose then [path ++ ": " ++ e.text] else []⟩

/-- Do what the arguments ask for. File names are relative to a directory; `read` is given the
whole path. -/
def respond {m : Type → Type} [Monad m] (directory : String)
    (read : String → m (Except ReadError String)) (now : Timestamp) (arguments : List String) :
    m Response := do
  match parse arguments with
  | .error e => return ⟨2, [], ["error: " ++ e.message]⟩
  | .ok .help => return ⟨0, helpText, []⟩
  | .ok .version => return ⟨0, [versionText], []⟩
  | .ok (.run o) =>
    match o.file? with
    | none => return ⟨0, [welcome], []⟩
    | some name =>
      let path := joinPath directory name
      return runFile o path (← read path) now

end TestDeclaration.CommandLine
