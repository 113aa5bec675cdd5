import RouteDoc.Command.Run

/-! The command. It takes a picture of the files that a run can meet, runs on the picture, and then
makes the directories and the file that the run has added. -/

namespace RouteDoc.Main

def usage : String :=
  "Usage: routedoc [OPTIONS] <TITLE> <HOST> <CONTROLLER_DIR> <OUTPUT_FILE> [ADD_QUOTA]\n\n" ++
  "Options:\n" ++
  "  -e, --extension <EXT>  File extensions to scan (repeatable, defaults to js and go)\n" ++
  "  -v, --verbose          Enable verbose output\n" ++
  "  -h, --help             Print help\n" ++
  "  -V, --version          Print version\n"

def usageText : UsageError → String
  | .missingArgument => "error: a required argument is missing\n\n" ++ usage
  | .unknownArgument => "error: an argument was not expected\n\n" ++ usage
  | .invalidValue => "error: a value is required\n\n" ++ usage
  | .tooManyValues => "error: a value was not expected\n\n" ++ usage
  | .conflict => "error: an argument cannot be used twice\n\n" ++ usage
  | .help => "Generate a Swagger 2.0 document from the comments of controllers\n\n" ++ usage
  | .version => "routedoc 1.0.0\n"

def textOf (place : Place) : String :=
  "/" ++ "/".intercalate place

/-- The tree with what stands at a place on disk. The bytes of a file are read if `wanted`. -/
def look (t : FileTree) (place : Place) (wanted : Bool) : IO FileTree := do
  let path := (← IO.currentDir) / textOf place
  if place.isEmpty then return t
  if ← path.isDir then return t.put place .directory
  if ← path.pathExists then
    let bytes ← if wanted then IO.FS.readBinFile path else pure ByteArray.empty
    return t.put place (.file bytes)
  return t

/-- The tree with what stands along a path on disk. -/
def lookAlong (t : FileTree) (path : String) (wanted : Bool) : IO FileTree := do
  let mut t := t
  let mut place := t.start path
  for name in FilePath.segments path do
    if name == ".." then
      place := place.dropLast
    else if name != "" && name != "." then
      place := place ++ [name]
    t ← look t place wanted
  return t

/-- The tree with all that a scan with its root at `root` can select below a directory on disk. A
directory that cannot be listed, or to which no path of the scan can lead, is closed. -/
partial def lookBelow (s : Scanner) (root : Place) (t : FileTree) (place : Place) :
    IO FileTree := do
  let directory := (← IO.currentDir) / textOf place
  let listing ← try some <$> directory.readDir catch _ => pure none
  match FileTree.checkPath (s.pathOf root place), listing with
  | .ok (), some entries =>
    let mut t := t
    for entry in entries do
      let below := place ++ [entry.fileName]
      let kind := (← entry.path.symlinkMetadata).type
      if kind == .dir then
        t ← look t below false
        unless Scanner.isSkipped entry.fileName do
          t ← lookBelow s root t below
      else if kind == .file && s.wants entry.fileName then
        t ← look t below true
    return t
  | _, _ => return t.put place .closed

/-- The picture of the files that a run can meet. -/
def picture (args : Arguments) : IO FileTree := do
  let home := (FilePath.segments (← IO.currentDir).toString).filter (!·.isEmpty)
  let mut t : FileTree := { home }
  for k in [1:home.length + 1] do
    t := t.put (home.take k) .directory
  t ← lookAlong t args.controllerDir true
  t ← lookAlong t args.outputFile false
  match t.resolve args.controllerDir with
  | .ok place => if t.isDirectory place then lookBelow args.scanner place t place else return t
  | .error _ => return t

/-- Makes the directories that a run has added to a picture. -/
def makeAdded (before after : FileTree) : IO Unit := do
  for place in after.places do
    if after.isDirectory place && (before.find? place).isNone then
      IO.FS.createDir (textOf place)

/-- Writes the output file as a run has left it. -/
def writeOutput (args : Arguments) (after : FileTree) : IO Unit := do
  if let .ok place := after.fileTarget args.outputFile then
    if let some (.file bytes) := after.find? place then
      IO.FS.writeBinFile (textOf place) bytes

/-- Runs the command with its arguments, and gives the exit code. -/
def command (words : List String) : IO UInt8 := do
  match Arguments.parse words with
  | .error e =>
    if e.exitCode == 0 then IO.print (usageText e) else IO.eprint (usageText e)
    return e.exitCode
  | .ok args =>
    let before ← try picture args catch e =>
      IO.eprintln ("Error: " ++ toString e)
      return 1
    if args.isVerbose then
      IO.eprintln ("DEBUG Files and directories in view: " ++ before.places.length.repr)
    let outcome := args.validateAndRun before
    for entry in outcome.log do
      IO.eprintln entry.text
    makeAdded before outcome.tree
    match outcome.result with
    | .error e =>
      IO.eprint e.report
      return 1
    | .ok () =>
      writeOutput args outcome.tree
      IO.eprintln (LogEntry.info "Swagger document generation completed successfully").text
      return 0

end RouteDoc.Main

def main (words : List String) : IO UInt32 := do
  return (← RouteDoc.Main.command words).toUInt32
