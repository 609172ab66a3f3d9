/-!
# CommandLine/Options — what the arguments ask for

Options may stand anywhere among the files. An argument that starts with two hyphens and is no
option is refused, the first such argument first; so are arguments without a file.
-/

namespace DeclFront.CommandLine

/-- The options given, and the files in order. -/
structure Options where
  listTokens : Bool
  printTree : Bool
  noColour : Bool
  files : List String
deriving DecidableEq, Repr

/-- Why a run does not start. -/
inductive UsageFault where
  | unknownOption (argument : String)
  | noFile
  | missing (file : String)
deriving DecidableEq, Repr

/-- What is said about the fault, in front of the usage. -/
def UsageFault.message : UsageFault → String
  | unknownOption argument => "Unknown option '" ++ argument ++ "'"
  | noFile => "No input file provided"
  | missing file => "File '" ++ file ++ "' not found"

namespace Options

/-- No flag set and no file named. -/
def empty : Options := ⟨false, false, false, []⟩

/-- The argument is meant as an option. -/
def isOption (argument : String) : Bool := "--".toList.isPrefixOf argument.toList

/-- One more argument. -/
def add (options : Options) (argument : String) : Except UsageFault Options :=
  if argument = "--tokens" then
    .ok ⟨true, options.printTree, options.noColour, options.files⟩
  else if argument = "--ast" then
    .ok ⟨options.listTokens, true, options.noColour, options.files⟩
  else if argument = "--no-color" then
    .ok ⟨options.listTokens, options.printTree, true, options.files⟩
  else if isOption argument then .error (.unknownOption argument)
  else .ok ⟨options.listTokens, options.printTree, options.noColour, options.files ++ [argument]⟩

/-- The options that the arguments give; at least one file has to be named. -/
def ofArguments (arguments : List String) : Except UsageFault Options := do
  let options ← arguments.foldlM add empty
  if options.files.isEmpty then throw .noFile
  return options

end Options

end DeclFront.CommandLine
