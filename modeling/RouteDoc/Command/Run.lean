import RouteDoc.Command.Arguments
import RouteDoc.Document
import RouteDoc.FileTree.Scanner

/-! A run of the command on a file tree. It scans for sources, reads them, generates the document
and writes it; a stage that fails ends the run, and nothing is written before the last stage. A run
tells what it does in a log. -/

namespace RouteDoc

/-- Why a run fails. -/
inductive RunError where
  | controllerMissing (path : String)
  | controllerNotDirectory (path : String)
  | rootInaccessible (path : String) (reason : FileError)
  | fileUnreadable (path : String) (reason : FileError)
  | generation (fault : TypeFault)
  | directoryNotMade (path : String) (reason : FileError)
  | fileNotWritten (path : String) (reason : FileError)
  deriving DecidableEq, Repr

namespace RunError

def message : RunError → String
  | controllerMissing path => "Controller directory does not exist: " ++ path
  | controllerNotDirectory path => "Controller path is not a directory: " ++ path
  | rootInaccessible path _ => "Failed to access directory: " ++ path
  | fileUnreadable path _ => "Failed to read file: " ++ path
  | generation _ => "Failed to generate Swagger document"
  | directoryNotMade path _ => "Failed to create directory: " ++ path
  | fileNotWritten path _ => "Failed to write to file: " ++ path

/-- What lies below the failure, if anything does. -/
def cause? : RunError → Option String
  | controllerMissing _ | controllerNotDirectory _ => none
  | generation fault => some fault.message
  | rootInaccessible _ reason | fileUnreadable _ reason | directoryNotMade _ reason
  | fileNotWritten _ reason => some reason.message

/-- The report of a failure that ends the command. -/
def report (e : RunError) : String :=
  let indented := fun (cause : String) =>
    "\n    ".intercalate ((cause.toList.splitOn '\n').map String.ofList)
  "Error: " ++ e.message ++ "\n" ++
    match e.cause? with
    | some cause => "\nCaused by:\n    " ++ indented cause ++ "\n"
    | none => ""

end RunError

/-- An entry of the log. -/
inductive LogEntry where
  | info (text : String)
  | warn (text : String)
  deriving DecidableEq, Repr

def LogEntry.text : LogEntry → String
  | info text => "INFO " ++ text
  | warn text => "WARN " ++ text

namespace FileTree

/-- Reads a source. Its path is its identifier. -/
def load (t : FileTree) (path : String) : Except RunError Source :=
  match t.read path with
  | .ok content => .ok { identifier := path, content }
  | .error reason => .error (.fileUnreadable path reason)

/-- Reads sources, up to the first that cannot be read. -/
def loadAll (t : FileTree) (paths : List String) : Except RunError (List Source) :=
  paths.mapM t.load

/-- Makes the directory that a path lies in, and those above it, where they are missing. -/
def makeParent (t : FileTree) (path : String) : FileTree × Except RunError Unit :=
  match FilePath.parent? path with
  | none => (t, .ok ())
  | some parent =>
    if parent.isEmpty then (t, .ok ())
    else
      let (made, result) := t.makeDirectories parent
      (made, result.mapError (.directoryNotMade parent))

/-- Writes a text to a file, in directories that are made where they are missing. -/
def write (t : FileTree) (path text : String) : FileTree × Except RunError Unit :=
  let (made, result) := t.makeParent path
  match result with
  | .error e => (made, .error e)
  | .ok () =>
    match made.putBytes path text.toUTF8 with
    | .ok written => (written, .ok ())
    | .error reason => (made, .error (.fileNotWritten path reason))

end FileTree

/-- How a run ends: the files it leaves, its log, and its failure if it fails. -/
structure Outcome where
  tree : FileTree
  log : List LogEntry
  result : Except RunError Unit

/-- A failure on the way, with the log so far. -/
def Outcome.failed (tree : FileTree) (log : List LogEntry) (e : RunError) : Outcome :=
  { tree, log, result := .error e }

namespace Arguments

/-- The scanner that the arguments ask for. -/
def scanner (args : Arguments) : Scanner :=
  ({ root := args.controllerDir } : Scanner).withExtensions args.extensions

/-- The log of arguments that can be run. -/
def log (args : Arguments) : List LogEntry :=
  [ .info ("Title: " ++ args.title),
    .info ("Host: " ++ args.host),
    .info ("Controller directory: " ++ args.controllerDir),
    .info ("Output file: " ++ args.outputFile) ] ++
  if args.addQuota.isSome then [.info "Quota marker: enabled"] else []

/-- Checks that the controllers are in a directory. -/
def validate (args : Arguments) (t : FileTree) : Except RunError Unit :=
  match t.resolve args.controllerDir with
  | .error _ => .error (.controllerMissing args.controllerDir)
  | .ok place =>
    if t.isDirectory place then .ok () else .error (.controllerNotDirectory args.controllerDir)

/-- The log of the files found. -/
def foundLog (args : Arguments) (paths : List String) : List LogEntry :=
  [.info ("Found " ++ paths.length.repr ++ " source files (" ++
    ", ".intercalate args.scanner.extensions ++ ")")] ++
  if paths.isEmpty then [.warn "No source files found in the controller directory"] else []

/-- The log of a document about to be written. -/
def writingLog (args : Arguments) (counts : Counts) : List LogEntry :=
  (if counts.routes = 0 then [.warn "No routes found in the controller directory"] else []) ++
    [.info ("Writing output to: " ++ args.outputFile)]

/-- The log of a document that has been written. -/
def summaryLog (counts : Counts) (warnings : List String) : List LogEntry :=
  [ .info "Generation complete!",
    .info "Summary:",
    .info ("  - Files scanned: " ++ counts.sources.repr),
    .info ("  - Comment blocks: " ++ counts.blocks.repr),
    .info ("  - Routes found: " ++ counts.routes.repr),
    .info ("  - Paths: " ++ counts.paths.repr),
    .info ("  - Definitions: " ++ counts.definitions.repr ++ " declared, " ++
      counts.implicitModels.repr ++ " implicit") ] ++
  if warnings.isEmpty then [] else [.info ("  - Warnings: " ++ warnings.length.repr)]

/-- Writes a generated document. The warnings are those of the scan. -/
def writeDocument (args : Arguments) (t : FileTree) (log : List LogEntry)
    (warnings : List String) (g : Generated) : Outcome :=
  let log := log ++ args.writingLog g.counts
  let (written, result) := t.write args.outputFile g.text
  match result with
  | .error e => .failed written log e
  | .ok () => { tree := written, log := log ++ summaryLog g.counts warnings, result := .ok () }

/-- Runs the command on a file tree. -/
def run (args : Arguments) (t : FileTree) : Outcome :=
  let warnings := args.scanner.warnings t
  let log := .info "Scanning controller directory..." :: warnings.map .warn
  match args.scanner.scan t with
  | .error reason => .failed t log (.rootInaccessible args.controllerDir reason)
  | .ok paths =>
    let log := log ++ args.foundLog paths
    match t.loadAll paths with
    | .error e => .failed t log e
    | .ok sources =>
      let reading := generate args.settings sources
      let log := log ++ [.info "Generating Swagger document..."] ++
        reading.warnings.map (.warn ·.message)
      match reading.result with
      | .error fault => .failed t log (.generation fault)
      | .ok generated => args.writeDocument t log warnings generated

/-- Checks the arguments and then runs the command. -/
def validateAndRun (args : Arguments) (t : FileTree) : Outcome :=
  match args.validate t with
  | .error e => .failed t [] e
  | .ok () =>
    let outcome := args.run t
    { outcome with log := args.log ++ outcome.log }

end Arguments

end RouteDoc
