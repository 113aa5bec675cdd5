import RouteDoc.Document.Settings
import RouteDoc.Text.Search

/-! The arguments of the command: four positional arguments and a fifth that may be left out, the
extensions to scan, and flags. Arguments are read from left to right, and the first that is wrong
decides the error. -/

namespace RouteDoc

structure Arguments where
  title : String
  host : String
  controllerDir : String
  outputFile : String
  addQuota : Option String := none
  extensions : List String := []
  isVerbose : Bool := false
  deriving DecidableEq, Repr, Inhabited

/-- The settings of the document. Any fifth argument asks for the mark of the default quota. -/
def Arguments.settings (args : Arguments) : Settings where
  title := args.title
  host := args.host
  includeQuota := args.addQuota.isSome

/-- The base path cannot be given. -/
theorem Arguments.settings_eq (args : Arguments) :
    args.settings = ⟨args.title, args.host, "/", args.addQuota.isSome⟩ := rfl

/-- Why arguments are not run. -/
inductive UsageError where
  | missingArgument
  /-- A flag that is not known, or a positional argument too many. -/
  | unknownArgument
  /-- An option without its value, or an empty path. -/
  | invalidValue
  /-- A flag with a value. -/
  | tooManyValues
  /-- A flag that is given twice. -/
  | conflict
  /-- The help is asked for. -/
  | help
  /-- The version is asked for. -/
  | version
  deriving DecidableEq, Repr

/-- The exit code of the command. -/
def UsageError.exitCode : UsageError → UInt8
  | .help | .version => 0
  | _ => 2

namespace Arguments

/-- The options and flags of the command. -/
inductive Flag where
  | extension
  | verbose
  | help
  | version
  deriving DecidableEq, Repr

def Flag.ofLong? (name : List Char) : Option Flag :=
  if name = "extension".toList then some .extension
  else if name = "verbose".toList then some .verbose
  else if name = "help".toList then some .help
  else if name = "version".toList then some .version
  else none

def Flag.ofShort? : Char → Option Flag
  | 'e' => some .extension
  | 'v' => some .verbose
  | 'h' => some .help
  | 'V' => some .version
  | _ => none

/-- How far the arguments have been read. -/
structure Progress where
  positional : List String := []
  extensions : List String := []
  isVerbose : Bool := false
  /-- Whether the next argument is the value of an option, if it is no flag itself. -/
  awaitsValue : Bool := false
  /-- Whether the argument before cannot stand as it is: an option that has no value yet, or an
  empty path. It is refused when the next argument is taken. -/
  isUnsettled : Bool := false
  /-- Whether all that follows is positional. -/
  isTrailing : Bool := false

namespace Progress

/-- Goes on to a known argument, unless the one before cannot stand. -/
def settle (p : Progress) : Except UsageError Progress :=
  if p.isUnsettled then .error .invalidValue else .ok { p with awaitsValue := false }

/-- Takes a flag without a value. -/
def takeFlag (p : Progress) : Flag → Except UsageError Progress
  | .extension => do
    let p ← p.settle
    return { p with awaitsValue := true, isUnsettled := true }
  | .verbose => do
    let p ← p.settle
    if p.isVerbose then throw .conflict
    return { p with isVerbose := true }
  | .help => do
    let _ ← p.settle
    throw .help
  | .version => do
    let _ ← p.settle
    throw .version

/-- Takes the value of the extension option. -/
def takeExtension (p : Progress) (value : List Char) : Progress :=
  { p with extensions := p.extensions ++ [String.ofList value], awaitsValue := false,
           isUnsettled := false }

/-- Takes a flag that is spelled out, with its value if there is one. -/
def takeLong (p : Progress) (name : List Char) (value : Option (List Char)) :
    Except UsageError Progress :=
  match Flag.ofLong? name, value with
  | none, _ => .error .unknownArgument
  | some .extension, some value => return (← p.settle).takeExtension value
  | some flag, none => p.takeFlag flag
  | some _, some _ => .error .tooManyValues

/-- Takes a cluster of one-letter flags. What follows the extension option is its value, and may
have an equals sign before it. -/
def takeShort (p : Progress) : List Char → Except UsageError Progress
  | [] => .ok p
  | c :: cs =>
    match Flag.ofShort? c with
    | none => .error .unknownArgument
    | some .extension =>
      match cs with
      | [] => p.takeFlag .extension
      | '=' :: value => return (← p.settle).takeExtension value
      | value => return (← p.settle).takeExtension value
    | some flag => do (← p.takeFlag flag).takeShort cs

/-- Takes a positional argument. The third and the fourth are paths, and must not be empty. -/
def takePositional (p : Progress) (arg : String) : Except UsageError Progress :=
  if p.positional.length ≥ 5 then .error .unknownArgument
  else do
    let p ← p.settle
    let isPath := p.positional.length == 2 || p.positional.length == 3
    return { p with positional := p.positional ++ [arg], isUnsettled := isPath && arg.isEmpty }

/-- Takes one argument. -/
def take (p : Progress) (arg : String) : Except UsageError Progress :=
  if p.isTrailing then p.takePositional arg
  else match arg.toList with
    | ['-', '-'] => .ok { p with isTrailing := true }
    | '-' :: '-' :: flag =>
      match Text.divide? ['='] flag with
      | some (name, value) => p.takeLong name (some value)
      | none => p.takeLong flag none
    | '-' :: c :: cs => p.takeShort (c :: cs)
    | cs => if p.awaitsValue then .ok (p.takeExtension cs) else p.takePositional arg

/-- The arguments when all have been taken. -/
def finish (p : Progress) : Except UsageError Arguments := do
  let p ← p.settle
  match p.positional with
  | title :: host :: controllerDir :: outputFile :: rest =>
    return {
      title, host, controllerDir, outputFile
      addQuota := rest.head?
      extensions := p.extensions
      isVerbose := p.isVerbose }
  | _ => throw .missingArgument

end Progress

/-- Reads the arguments of the command. -/
def parse (args : List String) : Except UsageError Arguments := do
  (← args.foldlM Progress.take {}).finish

end Arguments

end RouteDoc
