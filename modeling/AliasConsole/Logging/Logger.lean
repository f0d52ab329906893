import AliasConsole.Escape
import AliasConsole.Fault

/-!
# Loggers

A level is a number; the usual ones have names.  A record is what a part of the
program reports: its level, the name of its logger and its words.

A logger has a level of its own and handlers.  A record reaches a handler when
its level is at least the effective level of the logger and the level of the
handler.  Initialising a logger adds a console handler unless there is one and
sets its level; with a log file it also adds a file handler, unless there is
one, and lowers the level of the logger.  An empty path is no log file.
-/

namespace AliasConsole

/-! ## Levels and records -/

/-- The severity of a record; zero is unset. -/
abbrev Level := Int

namespace Level

def unset : Level := 0
def debug : Level := 10
def info : Level := 20
def warning : Level := 30
def error : Level := 40
def critical : Level := 50

def named : List (String × Level) :=
  [("CRITICAL", critical), ("FATAL", critical), ("ERROR", error), ("WARN", warning),
    ("WARNING", warning), ("INFO", info), ("DEBUG", debug), ("NOTSET", unset)]

def ofName? (name : Text) : Option Level := named.lookup (String.ofList name)

/-- The name of a level, or its number if it has none. -/
def name (level : Level) : Text :=
  if level = critical then "CRITICAL".toList
  else if level = error then "ERROR".toList
  else if level = warning then "WARNING".toList
  else if level = info then "INFO".toList
  else if level = debug then "DEBUG".toList
  else if level = unset then "NOTSET".toList
  else "Level ".toList ++ Text.ofInt level

/-- The style that a terminal shows a level in. -/
def style? (level : Level) : Option Style :=
  if level = debug then some .dim
  else if level = warning then some .yellow
  else if level = error then some .red
  else if level = critical then some .magenta
  else none

end Level

structure Record where
  level : Level
  logger : Text
  message : Text
deriving DecidableEq, Repr

/-- The part of the program that resolves and runs lines. -/
def consoleLogger : Text := "tokenline.console".toList

/-- The part of the program that keeps the commands. -/
def registryLogger : Text := "tokenline.registry".toList

/-- The part of the program that loads plugins. -/
def loaderLogger : Text := "tokenline.loader".toList

/-- The program itself. -/
def programLogger : Text := "tokenline".toList

/-! ## Handlers and loggers -/

/-- Where records go. -/
inductive Handler where
  | console (level : Level) (shownInStyle : Bool)
  | file (path : Text) (level : Level)
deriving DecidableEq, Repr

namespace Handler

def isConsole : Handler → Bool
  | console .. => true
  | file .. => false

def isFile (h : Handler) : Bool := !h.isConsole

def level : Handler → Level
  | console level _ => level
  | file _ level => level

def setConsoleLevel (level : Level) : Handler → Handler
  | console _ shownInStyle => console level shownInStyle
  | file path old => file path old

end Handler

/-- A logger with its own level, whether it passes records on, and its
handlers in the order in which they were added. -/
structure Logger where
  level : Level
  propagate : Bool
  handlers : List Handler
deriving DecidableEq, Repr

/-- The level that is asked of a logger. -/
inductive LevelRequest where
  | number (level : Level)
  | name (name : Text)
  | unusable
deriving DecidableEq, Repr

namespace LevelRequest

/-- The requested level; a name that no level has is refused, and so is what is
neither a number nor a name. -/
def level : LevelRequest → Except Fault Level
  | number level => .ok level
  | name word =>
    match Level.ofName? word with
    | some level => .ok level
    | none => .error (.saying .invalidValue ("Unknown level: ".toList ++ Text.quoted word))
  | unusable => .error (.silent .wrongType)

end LevelRequest

namespace Logger

def fresh : Logger := ⟨Level.unset, true, []⟩

/-- The effective level of a logger without a level of its own. -/
def inheritedLevel : Level := Level.warning

def effectiveLevel (l : Logger) : Level :=
  if l.level = Level.unset then inheritedLevel else l.level

/-- Adds a console handler unless there is one, and stops passing records on. -/
def attachConsole (shownInStyle : Bool) (l : Logger) : Logger :=
  { l with
    propagate := false
    handlers :=
      if l.handlers.any Handler.isConsole then l.handlers
      else l.handlers ++ [.console Level.unset shownInStyle] }

/-- Sets the level of the first console handler. -/
def setFirstConsoleLevel (level : Level) : List Handler → List Handler
  | [] => []
  | h :: rest =>
    if h.isConsole then h.setConsoleLevel level :: rest
    else h :: setFirstConsoleLevel level rest

def setLevel (level : Level) (l : Logger) : Logger :=
  { l with level, handlers := setFirstConsoleLevel level l.handlers }

/-- Adds a file handler unless there is one, and lets every record through. -/
def attachFile (path : Text) (l : Logger) : Logger :=
  { l with
    level := Level.debug
    handlers :=
      if l.handlers.any Handler.isFile then l.handlers
      else l.handlers ++ [.file path Level.unset] }

/-- The log file that a path asks for. -/
def logFile? (path : Option Text) : Option Text := path.filter fun t => !t.isEmpty

def init (shownInStyle : Bool) (level : Level) (file : Option Text) (l : Logger) : Logger :=
  let l := (l.attachConsole shownInStyle).setLevel level
  match logFile? file with
  | none => l
  | some path => l.attachFile path

/-- Initialises a logger at a requested level.  When the level is refused the
console handler has already been added. -/
def request (shownInStyle : Bool) (request : LevelRequest) (file : Option Text) (l : Logger) :
    Except Fault Unit × Logger :=
  match request.level with
  | .ok level => (.ok (), l.init shownInStyle level file)
  | .error fault => (.error fault, l.attachConsole shownInStyle)

/-- The handlers that a record of a level reaches; a record without a level
reaches none. -/
def reached (l : Logger) (level : Level) : List Handler :=
  if level ≤ Level.unset || level < l.effectiveLevel then []
  else l.handlers.filter fun h => h.level ≤ level

end Logger

def Record.consoleLine (shownInStyle : Bool) (r : Record) : Text :=
  let line := '[' :: r.level.name ++ "] ".toList ++ r.message
  match r.level.style? with
  | some style => styled shownInStyle style line
  | none => line

/-- The line of a record in a log file, after its time stamp and without escape
sequences. -/
def Record.fileLine (stamp : Text) (r : Record) : Text :=
  stripEscapes (stamp ++ " [".toList ++ r.level.name ++ "] ".toList ++ r.logger ++
    ": ".toList ++ r.message)

/-- A line for the console or for a file. -/
inductive Delivery where
  | toConsole (line : Text)
  | toFile (path line : Text)
deriving DecidableEq, Repr

def Handler.deliver (stamp : Text) (r : Record) : Handler → Delivery
  | .console _ shownInStyle => .toConsole (r.consoleLine shownInStyle)
  | .file path _ => .toFile path (r.fileLine stamp)

/-- What a logger writes for a record.  A logger without handlers puts the words
of warnings and worse on the console. -/
def Logger.emit (stamp : Text) (l : Logger) (r : Record) : List Delivery :=
  if l.handlers.isEmpty then
    if r.level < Level.warning then [] else [.toConsole r.message]
  else (l.reached r.level).map (Handler.deliver stamp r)

end AliasConsole
