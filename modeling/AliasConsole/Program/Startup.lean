import AliasConsole.Config.Basic
import AliasConsole.Logging.Logger
import AliasConsole.Plugins.Package
import AliasConsole.Terminal.Repl

/-!
# The start

The program starts in steps: it loads the configuration, initialises the logger,
creates the console and loads the plugins.  Each step is announced by a status
line, in green when it is done and in red when it failed; the first failure ends
the start.

A log file is opened for more records at an absolute path.  It cannot be opened
when a directory on the way is missing, when something on the way is no
directory, when a name or the path is too long, or when the path itself leads
to a directory.  What comes first on the way decides.
-/

namespace AliasConsole

/-! ## The log file -/

namespace LogFile

inductive Target where
  | directory
  | file
  | nothing
deriving DecidableEq, Repr

inductive Obstacle where
  | missing
  | notDirectory
  | isDirectory
  | tooLong
deriving DecidableEq, Repr

/-- The cause and the words of an obstacle. -/
def Obstacle.words : Obstacle → FaultKind × String
  | .missing => (.missingFile, "[Errno 2] No such file or directory: ")
  | .notDirectory => (.notDirectory, "[Errno 20] Not a directory: ")
  | .isDirectory => (.isDirectory, "[Errno 21] Is a directory: ")
  | .tooLong => (.system, "[Errno 36] File name too long: ")

def Obstacle.fault (path : Text) (o : Obstacle) : Fault :=
  .saying o.words.1 (o.words.2.toList ++ Text.quoted path)

def maxNameLength : Nat := 255

def maxPathLength : Nat := 4095

def byteLength (t : Text) : Nat := t.foldr (fun c n => c.utf8Size + n) 0

def names (path : Text) : List Text := (Text.pieces '/' path).filter fun name => !name.isEmpty

def pathsFrom (directory : Text) : List Text → List Text
  | [] => []
  | name :: rest => (directory ++ '/' :: name) :: pathsFrom (directory ++ '/' :: name) rest

/-- The first obstacle from a directory along names. -/
def obstacleFrom? (target : Text → Target) (directory : Text) : List Text → Option Obstacle
  | [] => some .isDirectory
  | name :: rest =>
    let path := directory ++ '/' :: name
    if maxNameLength < byteLength name then some .tooLong
    else match target path, rest with
      | .directory, rest => obstacleFrom? target path rest
      | _, [] => none
      | .file, _ :: _ => some .notDirectory
      | .nothing, _ :: _ => some .missing

/-- The first obstacle on the way to an absolute path. -/
def obstacle? (target : Text → Target) (path : Text) : Option Obstacle :=
  if maxPathLength < byteLength path then some .tooLong
  else obstacleFrom? target [] (names path)

end LogFile

/-! ## Steps of the start -/

/-- What the program finds around it. -/
structure Platform (W : Type) where
  /-- The modules that plugins can be loaded from. -/
  modules : List (Text × PluginModule W)
  /-- What an absolute path leads to. -/
  target : Text → LogFile.Target
  /-- How many levels deep commands may submit lines of their own. -/
  depth : Nat
  /-- The log is shown on a terminal with styles. -/
  logInStyle : Bool

/-- The program so far: what it wrote, its logger and its console. -/
structure Startup (W : Type) where
  written : List Written
  logger : Logger
  session : Session W

/-- A part of the start: it changes the program, and when it ends in a fault the
changes made so far stay. -/
abbrev Launch (W α : Type) := EStateM Fault (Startup W) α

namespace Startup

variable {W : Type}

def initial (world : W) : Startup W := ⟨[], .fresh, .ofRegistry .empty world⟩

def doneLine (label : Text) : Written := .line ("[  OK  ] ".toList ++ label) (some .green)

def failedLine (label : Text) (fault : Fault) : Written :=
  .line
    ("[FAILED] ".toList ++ label ++ " (".toList ++ fault.kind.name ++ ": ".toList ++
      fault.message ++ [')'])
    (some .red)

def announce (line : Written) : Launch W Unit :=
  modify fun s => { s with written := s.written ++ [line] }

/-- Runs a step and announces how it went.  A quiet start announces failures
only, and a fault that nothing may swallow is no failure. -/
def step {α : Type} (quiet : Bool) (label : Text) (action : Launch W α) : Launch W α := do
  let outcome : Except Fault α ←
    tryCatch (do return .ok (← action)) fun fault => pure (.error fault)
  match outcome with
  | .ok a =>
    unless quiet do announce (doneLine label)
    return a
  | .error fault =>
    unless fault.kind.isDeparture do announce (failedLine label fault)
    throw fault

def onSession {α : Type} (action : Action W α) : Launch W α := fun s =>
  match action s.session with
  | .ok a session => .ok a { s with session }
  | .error fault session => .error fault { s with session }

def requestedLevel (config : Config) : LevelRequest :=
  match config.logLevel with
  | some name => .name name
  | none => .number Level.info

def initialiseLogger (platform : Platform W) (config : Config) : Launch W Unit := do
  let s ← get
  let (answer, logger) := s.logger.request platform.logInStyle (requestedLevel config) none
  set { s with logger }
  match answer with
  | .error fault => throw fault
  | .ok _ => pure ()
  match config.logFile with
  | none => pure ()
  | some path =>
    match LogFile.obstacle? platform.target path with
    | some obstacle => throw (obstacle.fault path)
    | none => modify fun s => { s with logger := s.logger.attachFile path }

def createConsole (config : Config) : Launch W Unit :=
  onSession (Session.start config.height (if config.showBanner then some config.banner else none))

def countText (commands loaded : Nat) : Text :=
  Text.ofNat commands ++ " commands registered (".toList ++ Text.ofNat loaded ++
    " from plugins)".toList

/-- Loads the configuration, after the warning about one that was refused. -/
def configure (quiet : Bool) (found : Except Fault Config.Fallback) : Launch W Config :=
  step quiet "Load configuration".toList do
    match found with
    | .error fault => throw fault
    | .ok r =>
      r.notice.forM announce
      return r.config

/-- Starts the program with a configuration, and gives the number of commands
that the plugins added. -/
def boot (platform : Platform W) (quiet : Bool) (config : Config) : Launch W Nat := do
  step quiet "Initialize logger".toList (initialiseLogger platform config)
  step quiet "Create console".toList (createConsole config)
  let loaded ←
    step quiet ("Load commands from '".toList ++ config.pluginPackage ++ ['\''])
      (onSession (Session.loadPackage platform.depth platform.modules config.pluginPackage))
  let commands := (← get).session.registry.size
  onSession (Session.report .debug programLogger (countText commands loaded))
  step quiet "Boot complete".toList (pure ())
  return loaded

/-- What the logger writes for the records after the first `seen`. -/
def deliveries (stamp : Text) (seen : Nat) (s : Startup W) : List Delivery :=
  (s.session.journal.drop seen).flatMap (s.logger.emit stamp)

end Startup

/-! ## The program

The program starts, shows the banner and then reads and submits lines until the
input ends or the user leaves.
-/

namespace Program

variable {W : Type}

/-- Starts the program with the configuration that was found. -/
def start (platform : Platform W) (found : Except Fault Config.Fallback) : Launch W Config := do
  let config ← Startup.configure false found
  let _ ← Startup.boot platform false config
  return config

/-- The lines that are on the console at the start, oldest first. -/
def greeting (s : Session W) : List Written :=
  (s.visible none).reverse.map fun v => .line v.plain (some .cyan)

/-- The program at its end, and the fault that ended it, if any. -/
structure Outcome (W : Type) where
  program : Startup W
  fault : Option Fault

def run (platform : Platform W) (found : Except Fault Config.Fallback) (input : List Input)
    (world : W) : Outcome W :=
  match start platform found (.initial world) with
  | .error fault program => ⟨program, some fault⟩
  | .ok config program =>
    let course := Repl.run platform.depth ⟨config.prompt, false⟩ input program.session
    ⟨{ program with
        written := program.written ++ greeting program.session ++ course.written
        session := course.session },
      course.fault⟩

end Program

end AliasConsole
