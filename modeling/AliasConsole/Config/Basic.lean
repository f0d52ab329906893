import AliasConsole.Config.Coercion
import AliasConsole.Escape
import AliasConsole.Text.Utf8
import AliasConsole.Toml.Document

/-!
# Configuration

The configuration has eight fields with defaults.  Each field may be given in
the configuration document, under a section and a key, and in the environment,
which wins.  Entries of the document that belong to no field are kept apart.
-/

namespace AliasConsole

structure Config where
  pluginPackage : Text
  logFile : Option Text
  logLevel : Option Text
  height : Int
  prompt : Text
  banner : Text
  showBanner : Bool
  enableCompletion : Bool
  /-- The entries of the document that belong to no field. -/
  extra : List (Text × Value)

namespace Config

def defaults : Config :=
  { pluginPackage := "plugins".toList
    logFile := none
    logLevel := none
    height := 10
    prompt := defaultPrompt
    banner := " ----------- tokenline console -----------".toList
    showBanner := true
    enableCompletion := true
    extra := [] }

/-- The fields that can be configured. -/
inductive Field where
  | pluginPackage
  | logFile
  | logLevel
  | height
  | prompt
  | banner
  | showBanner
  | enableCompletion
deriving DecidableEq, Repr

namespace Field

def all : List Field :=
  [pluginPackage, logFile, logLevel, height, prompt, banner, showBanner, enableCompletion]

def place : Field → Text × Text
  | pluginPackage => ("plugins".toList, "package".toList)
  | logFile => ("logging".toList, "file".toList)
  | logLevel => ("logging".toList, "level".toList)
  | height => ("console".toList, "height".toList)
  | prompt => ("prompt".toList, "text".toList)
  | banner => ("console".toList, "banner".toList)
  | showBanner => ("console".toList, "show_banner".toList)
  | enableCompletion => ("prompt".toList, "completion".toList)

def variableName : Field → Text
  | pluginPackage => "TOKENLINE_PLUGIN_PACKAGE".toList
  | logFile => "TOKENLINE_LOG_FILE_PATH".toList
  | logLevel => "TOKENLINE_LOG_LEVEL".toList
  | height => "TOKENLINE_CONSOLE_HEIGHT".toList
  | prompt => "TOKENLINE_PROMPT".toList
  | banner => "TOKENLINE_BANNER".toList
  | showBanner => "TOKENLINE_SHOW_BANNER".toList
  | enableCompletion => "TOKENLINE_ENABLE_COMPLETION".toList

/-- The field that a section and a key of the document belong to. -/
def at? (sectionName key : Text) : Option Field :=
  all.find? fun f => f.place == (sectionName, key)

end Field

/-- What a configuration is loaded in. -/
structure Surroundings where
  environment : Environment
  files : FileSystem
  /-- The room for values inside each other while the document is read. -/
  reading : Toml.Room
  /-- The room for values inside each other where the value of a field is written. -/
  writing : Field → Nat
  /-- Why a notice cannot be put out, if it cannot. -/
  unwritten? : Written → Option Fault

def Field.assign (s : Surroundings) (v : Value) (c : Config) (f : Field) :
    Except Fault Config :=
  match f with
  | pluginPackage => do return { c with pluginPackage := ← readModuleName (s.writing f) v }
  | logFile => do
    return { c with logFile := ← readPath s.environment s.files (s.writing f) v }
  | logLevel => do return { c with logLevel := ← readLogLevel (s.writing f) v }
  | height => do return { c with height := ← readHeight (s.writing f) v }
  | prompt => do return { c with prompt := ← readPrompt (s.writing f) v }
  | banner => do return { c with banner := ← readBanner (s.writing f) v }
  | showBanner => do return { c with showBanner := ← readBool (s.writing f) v }
  | enableCompletion => do return { c with enableCompletion := ← readBool (s.writing f) v }

abbrev Settings := List (Field × Value)

/-- Puts the value of a field, at the place of the field or at the end. -/
def Settings.put (f : Field) (v : Value) : Settings → Settings
  | [] => [(f, v)]
  | (g, old) :: rest => if g = f then (f, v) :: rest else (g, old) :: Settings.put f v rest

/-- Adds an entry of a section: to the settings, or to the entries that belong
to no field, under the section and the key joined by a point. -/
def takeEntry (sectionName : Text) (found : Settings × List (Text × Value))
    (entry : Text × Value) : Settings × List (Text × Value) :=
  match Field.at? sectionName entry.1 with
  | some f => (Settings.put f entry.2 found.1, found.2)
  | none => (found.1, Toml.Table.put (sectionName ++ '.' :: entry.1) entry.2 found.2)

/-- Adds a top-level entry of the document; an entry that is no table belongs to
no field. -/
def takeSection (found : Settings × List (Text × Value)) (entry : Text × Value) :
    Settings × List (Text × Value) :=
  match entry.2 with
  | .table entries => entries.foldl (takeEntry entry.1) found
  | v => (found.1, Toml.Table.put entry.1 v found.2)

def ofDocument (document : List (Text × Value)) : Settings × List (Text × Value) :=
  document.foldl takeSection ([], [])

/-- The settings after those of the environment, which win. -/
def withEnvironment (environment : Environment) (settings : Settings) : Settings :=
  Field.all.foldl
    (fun settings f =>
      match environment.lookup f.variableName with
      | some value => Settings.put f (.text value) settings
      | none => settings)
    settings

def assignAll (s : Surroundings) : Settings → Config → Except Fault Config
  | [], c => .ok c
  | (f, v) :: rest, c => do assignAll s rest (← f.assign s v c)

def documentFault : Toml.Refusal → Fault
  | .malformed => refusal "config.toml: TOML syntax error".toList
  | .integerTooLong digits =>
    .saying .invalidValue (Decimal.IntegerRefusal.text [] (.tooLong digits))
  | .tooDeep => .tooDeep

def readDocument (room : Toml.Room) :
    Option (List Nat) → Except Fault (List (Text × Value))
  | none => .ok []
  | some bytes => do
    match Toml.read room (← Utf8.decode bytes) with
    | .ok table => .ok table
    | .error r => .error (documentFault r)

def ofEntries (s : Surroundings) (environment : Environment)
    (document : List (Text × Value)) : Except Fault Config :=
  let (settings, extra) := ofDocument document
  assignAll s (withEnvironment environment settings) { defaults with extra }

def load (s : Surroundings) (environment : Environment) (document : Option (List Nat)) :
    Except Fault Config := do
  ofEntries s environment (← readDocument s.reading document)

/-- What loading with a fallback gives: the configuration, whether it is the
fallback, and the notice that is written about it. -/
structure Fallback where
  config : Config
  isDefaults : Bool
  notice : List Written

def refusedNotice (fault : Fault) : Written :=
  .line ("[ WARN ] Invalid configuration: ".toList ++ fault.message) (some .yellow)

/-- Loads the configuration from the document and the environment of the
program; a refused configuration is replaced by the defaults after a notice, if
the notice can be put out. -/
def loadOrDefaults (s : Surroundings) (document : Option (List Nat)) : Except Fault Fallback :=
  match load s s.environment document with
  | .ok config => .ok ⟨config, false, []⟩
  | .error fault =>
    if fault.kind = .configuration then
      match s.unwritten? (refusedNotice fault) with
      | none => .ok ⟨defaults, true, [refusedNotice fault]⟩
      | some own => .error own
    else .error fault

end Config

end AliasConsole
