import AliasConsole.Duration
import AliasConsole.Plugins.Package
import AliasConsole.Plugins.Variables
import AliasConsole.Script

/-!
# Built-in plugins

The package that is loaded unless another one is configured.  It has the system
commands and the variables, each in a package with an entry point.
-/

namespace AliasConsole

/-! ## System commands

Commands that echo, name the user, tell the time and how long the program has
been running, and the literal commands that leave the program and tell its
version.  What they need of the surrounding system is given by a host.
-/

/-- What the system around the program tells. -/
structure Host (W : Type) where
  user : Text
  node : Text
  /-- The installed version, if the program is installed. -/
  version : Option Text
  /-- Reads the local date and time. -/
  now : Reads W (Date × TimeOfDay)
  /-- Reads the clock that never goes back. -/
  monotonic : Reads W Seconds

namespace Host

variable {W : Type} (host : Host W)

def echoCommand : Callback W := fun tokens => .say (Text.joined [' '] (tokens.drop 1))

def whoamiCommand : Callback W := fun _ => .say (host.user ++ '@' :: host.node)

def timeCommand : Callback W := fun _ =>
  .reading host.now fun (date, time) => .say (date.text ++ ' ' :: time.clock)

def uptimeCommand (started : Seconds) : Callback W := fun _ =>
  .reading host.monotonic fun now =>
    match (started.since now).truncated >>= durationText (some Decimal.maxIntegerDigits) with
    | .ok duration => .say ("up ".toList ++ duration)
    | .error fault => .fail fault

def leaveCommand : Callback W := fun _ => .fail (.saying .exit ['0'])

def versionCommand : Callback W := fun _ =>
  .say ("tokenline ".toList ++ host.version.getD "(not installed)".toList)

/-- The command with one position and one group of names. -/
def named (names : List String) (callback : Callback W) : Registration W (Script W) :=
  .aliases [.candidates (.fixed [names.map String.toList])] none callback

def commands (started : Seconds) : List (Registration W (Script W)) :=
  [named ["echo", "say"] echoCommand,
   named ["whoami", "user"] host.whoamiCommand,
   named ["time", "date", "now"] host.timeCommand,
   named ["uptime"] (host.uptimeCommand started)]

def literals : List (Registration W (Script W)) :=
  [.literal "exit".toList leaveCommand,
   .literal "quit".toList leaveCommand,
   .literal "version".toList host.versionCommand]

/-- Reads the clock and registers the commands with aliases. -/
def enrolment : Script W :=
  .reading host.monotonic fun started => .enrol (host.commands started) (.reply .null)

end Host

/-! ## Built-in plugins -/

variable {W : Type}

/-- A package that contributes through its entry point alone. -/
def PluginModule.entered (c : Contribution W) : PluginModule W :=
  .package (.ok .none) [(entryName, .plain (.ok c))]

def Host.contribution (host : Host W) : Contribution W :=
  ⟨host.enrolment, host.literals.map .command⟩

def Variables.contribution (part : Part W Variables) : Contribution W :=
  ⟨.enrol (commands part) (.reply .null), []⟩

/-- The built-in plugins under the name of their package. -/
def builtInModules (host : Host W) (part : Part W Variables) : List (Text × PluginModule W) :=
  [("plugins".toList,
    .package (.ok .none)
      [("system".toList, .entered host.contribution),
       ("vars".toList, .entered (Variables.contribution part))])]

end AliasConsole
