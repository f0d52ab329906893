import AliasConsole.Plugins.BuiltIn
import AliasConsole.Program.Startup
import Std.Time.Zoned

/-!
# The command line program

The program reads its configuration from the file `config.toml` in the working
directory and from the environment, starts, and serves the lines of the standard
input.  What it answers is decided elsewhere; here the surrounding system is
read, and what the program wrote and reported is put out.
-/

namespace AliasConsole.CommandLine

/-- The variables, and the clocks as they were last read. -/
structure World where
  store : Variables
  now : Date × TimeOfDay
  monotonic : Seconds

def variablesPart : Part World Variables := ⟨World.store, fun v w => { w with store := v }⟩

/-- The host that tells the clocks as they were last read. -/
def host (user node : Text) : Host World :=
  { user
    node
    version := some "0.1.0".toList
    now := do return (← get).now
    monotonic := do return (← get).monotonic }

/-- The home directories of the accounts in a table, under the part of an entry with
the given number. -/
def homes (part : Nat) (table : Text) : List (Text × Text) :=
  (Text.pieces '\n' table).filterMap fun entry =>
    let parts := Text.pieces ':' entry
    match parts[part]?, parts[5]? with
    | some key, some home => some (key, home)
    | _, _ => none

/-- The number of the account that a process runs under, from what the system says
about the process. -/
def userNumber? (status : Text) : Option Text :=
  (Text.pieces '\n' status).findSome? fun line =>
    match Text.pieces '\t' line with
    | name :: number :: _ => if name = "Uid:".toList then some number else none
    | _ => none

/-- How many levels deep commands may submit lines of their own. -/
def depth : Nat := 490

/-- The room for values inside each other in a document. -/
def reading : Toml.Room := ⟨985, 2, 3⟩

/-- The room for values inside each other where a value is written. -/
def writing : Nat := 989

def configFile : String := "config.toml"

/-- The log file is put aside when a line would take it to this size. -/
def maxLogSize : Nat := 1000000

/-- The log files that are put aside, the oldest last. -/
def logBackups : Nat := 3

def readNow : IO (Date × TimeOfDay) := do
  let t ← Std.Time.PlainDateTime.now
  return (⟨t.year.toInt.toNat, t.month.toInt.toNat, t.day.toInt.toNat⟩,
    ⟨t.hour.toInt.toNat, t.minute.toInt.toNat, t.second.toInt.toNat,
      t.nanosecond.toInt.toNat / 1000⟩)

def readClocks (w : World) : IO World := do
  return { w with now := ← readNow, monotonic := .fractional ((← IO.monoNanosNow).toFloat / 1e9) }

def readText (path : String) : IO Text := do
  try return (← IO.FS.readFile path).toList
  catch _ => return []

def readVariables : List Text → IO Environment
  | [] => return []
  | name :: rest => do
    let others ← readVariables rest
    match ← IO.getEnv (String.ofList name) with
    | some value => return (name, value.toList) :: others
    | none => return others

def readBytes (path : String) : IO (Option (List Nat)) := do
  try return some ((← IO.FS.readBinFile path).toList.map UInt8.toNat)
  catch _ => return none

/-- What an absolute path leads to, beside the path. -/
def readTarget (path : Text) : IO (Text × LogFile.Target) := do
  let place := (← IO.currentDir) / String.ofList path
  let isDirectory ← place.isDir
  let isThere ← place.pathExists
  return (path, if isDirectory then .directory else if isThere then .file else .nothing)

/-- The file system as far as a path depends on it.  Symbolic links are not looked
up: a path in the log keeps their names. -/
def readFileSystem : IO FileSystem := do
  let workingDirectory ← try pure (some (← IO.currentDir).toString.toList) catch _ => pure none
  let table ← readText "/etc/passwd"
  let number? := userNumber? (← readText "/proc/self/status")
  return {
    workingDirectory
    userHome := number?.bind fun number => (homes 2 table).lookup number
    accounts := homes 0 table
    links := []
    nesting := 0 }

/-- The variables that the configuration may depend on: those of the fields, the
home directory, the switch for styles, and those that are mentioned. -/
def readEnvironment (document : Option (List Nat)) : IO Environment := do
  let names := Config.Field.all.map Config.Field.variableName ++
    ["HOME".toList, "NO_COLOR".toList]
  let set ← readVariables names
  let mentioned := FilePath.mentions ((document.getD []).map Char.ofNat) ++
    set.flatMap fun entry => FilePath.mentions entry.2
  return set ++ (← readVariables mentioned)

/-- Puts the log file aside when `more` bytes would take it to its greatest
size. -/
def rotate (path : String) (more : Nat) : IO Unit := do
  let size := (← readBytes path).elim 0 List.length
  if size + more ≥ maxLogSize then
    for k in (List.range logBackups).reverse do
      let older := if k = 0 then path else s!"{path}.{k}"
      try IO.FS.rename older s!"{path}.{k + 1}"
      catch _ => pure ()

def putRecord : Delivery → IO Unit
  | .toConsole line => IO.eprintln (String.ofList line)
  | .toFile path line => do
    let path := String.ofList path
    let entry := String.ofList (line ++ ['\n'])
    rotate path entry.utf8ByteSize
    IO.FS.withFile path .append fun file => file.putStr entry

def putRecords (seen : Nat) (program : Startup World) : IO Unit := do
  let (date, time) ← readNow
  (program.deliveries (date.text ++ ' ' :: time.clock) seen).forM putRecord

def put (inStyle : Bool) (pieces : List Written) : IO Unit := do
  let out ← IO.getStdout
  out.putStr (String.ofList (Written.renderAll inStyle pieces))
  out.flush

def putFault (fault : Fault) : IO UInt32 := do
  IO.eprintln (String.ofList (fault.kind.name ++ ": ".toList ++ fault.message))
  return 1

/-- A line without the character that ends it. -/
def withoutEnd (line : Text) : Text :=
  if line.getLast? = some '\n' then line.dropLast else line

/-- Serves the lines of the standard input. -/
def serve (inStyle : Bool) (prompt : Text) (start : Startup World) : IO UInt32 := do
  let input ← IO.getStdin
  let mut program := start
  repeat
    put inStyle [.prompt prompt]
    let line ← input.getLine
    if line.isEmpty then return 0
    let session := program.session
    let (turn, after) :=
      Repl.turn depth (withoutEnd line.toList) { session with world := ← readClocks session.world }
    program := { program with session := after }
    putRecords session.journal.length program
    match turn with
    | .shows lines => put inStyle lines
    | .ends => return 0
    | .leaves fault => return ← putFault fault
  return 0

def run : IO UInt32 := do
  let document ← readBytes configFile
  let environment ← readEnvironment document
  let noColor := environment.lookup "NO_COLOR".toList
  let inStyle := stylesEnabled noColor (← (← IO.getStdout).isTty)
  let logInStyle := stylesEnabled noColor (← (← IO.getStderr).isTty)
  let surroundings : Config.Surroundings :=
    { environment
      files := ← readFileSystem
      reading
      writing := fun _ => writing
      unwritten? := fun _ => none }
  let found := Config.loadOrDefaults surroundings document
  let logFile := found.toOption.bind fun r => r.config.logFile
  let targets ← (LogFile.pathsFrom [] (LogFile.names (logFile.getD []))).mapM readTarget
  let users ← readVariables ["LOGNAME".toList, "USER".toList, "LNAME".toList, "USERNAME".toList]
  let user := ((users.map (·.2)).find? (!·.isEmpty)).getD []
  let node := (Text.pieces '\n' (← readText "/etc/hostname")).headD []
  let platform : Platform World :=
    { modules := builtInModules (host user node) variablesPart
      target := fun path => (targets.lookup path).getD .nothing
      depth
      logInStyle }
  let world ← readClocks ⟨.empty, (⟨1, 1, 1⟩, ⟨0, 0, 0, 0⟩), .whole 0⟩
  match Program.start platform found (.initial world) with
  | .error fault program =>
    putRecords 0 program
    put inStyle program.written
    if fault.kind.isExit then return 0
    putFault fault
  | .ok config program =>
    putRecords 0 program
    put inStyle (program.written ++ Program.greeting program.session)
    serve inStyle config.prompt program

end AliasConsole.CommandLine

def main : IO UInt32 := AliasConsole.CommandLine.run
