import AliasConsole.Config.Path
import AliasConsole.Decimal.Reading
import AliasConsole.Text.Casing
import AliasConsole.Text.WordChar
import AliasConsole.Value

/-!
# Configured values

How a value of the configuration document or of the environment is read as a
truth value, a height, a log level, a module name, a prompt or a path.  A value
that cannot be read is refused with its written form; one that cannot even be
written, because there is no `room` for the values inside each other in it or an
integer is too long, is given up for that reason.
-/

namespace AliasConsole.Config

def refusal (words : Text) : Fault := .saying .configuration words

def refusalOf (room : Nat) (words : Text) (v : Value) : Fault :=
  match v.write room with
  | .ok form => refusal (words ++ form)
  | .error fault => fault

def truthWords : List (String × Bool) :=
  [("1", true), ("true", true), ("yes", true), ("on", true),
   ("0", false), ("false", false), ("no", false), ("off", false)]

def readBool (room : Nat) : Value → Except Fault Bool
  | .bool b => .ok b
  | v => do
    match truthWords.lookup (String.ofList (Text.lower (Text.trim (← v.spell room)))) with
    | some b => .ok b
    | none => .error (refusalOf room "Expected boolean, got: ".toList v)

def notAHeight (room : Nat) (v : Value) : Fault :=
  refusalOf room "Console height must be an integer, got: ".toList v

def readHeightNumber (room : Nat) : Value → Except Fault Int
  | .bool b => .error (notAHeight room (.bool b))
  | .int n => .ok n
  | v => do
    match Decimal.readInteger (Text.trim (← v.spell room)) with
    | .ok n => .ok n
    | .error _ => .error (notAHeight room v)

def readHeight (room : Nat) (v : Value) : Except Fault Int := do
  let n ← readHeightNumber room v
  if n < 1 then .error (refusalOf room "Console height must be >= 1, got: ".toList (.int n))
  else .ok n

/-- The plain text of a value, unless it is blank or says that there is none. -/
def optionalText (room : Nat) : Value → Except Fault (Option Text)
  | .null => .ok none
  | v => do
    let t ← v.spell room
    let word := Text.lower (Text.trim t)
    return if word.isEmpty || word = "none".toList then none else some t

def logLevels : List Text :=
  ["DEBUG".toList, "INFO".toList, "WARNING".toList, "ERROR".toList, "CRITICAL".toList]

/-- Upper casing as far as it leads to ASCII letters; the dotless i is the one
other letter whose upper case is one of them and that level names use. -/
def levelUpper (c : Char) : Char :=
  if 97 ≤ c.toNat && c.toNat ≤ 122 then Char.ofNat (c.toNat - 32)
  else if c.toNat = 0x131 then 'I'
  else c

/-- A log level in any case, or none. -/
def readLogLevel (room : Nat) (v : Value) : Except Fault (Option Text) := do
  match ← optionalText room v with
  | none => return none
  | some word =>
    let upper := word.map levelUpper
    if logLevels.contains upper then return some upper
    else throw (refusal ("Log level must be one of ".toList ++
      (Value.list (logLevels.map .text)).written ++ ", got ".toList ++ Text.quoted word))

def readPath (environment : Environment) (files : FileSystem) (room : Nat) (v : Value) :
    Except Fault (Option Text) := do
  match ← optionalText room v with
  | none => return none
  | some path => return some (← FilePath.resolve environment files path)

def isIdentifierStart (c : Char) : Bool :=
  ('a' ≤ c && c ≤ 'z') || ('A' ≤ c && c ≤ 'Z') || c == '_'

/-- An ASCII letter or an underscore, then word characters. -/
def isIdentifier : Text → Bool
  | [] => false
  | c :: rest => isIdentifierStart c && rest.all isWordChar

/-- A module name: identifiers joined by points. -/
def readModuleName (room : Nat) (v : Value) : Except Fault Text := do
  let name := Text.trim (← v.spell room)
  if (Text.pieces '.' name).all isIdentifier then return name
  else throw (refusal ("Plugin package must be a dotted module name, got ".toList ++
    Text.quoted name))

def defaultPrompt : Text := "> ".toList

def readPrompt (room : Nat) (v : Value) : Except Fault Text := do
  return (← optionalText room v).getD defaultPrompt

/-- The banner, which may be empty. -/
def readBanner (room : Nat) : Value → Except Fault Text
  | .null => .ok []
  | v => v.spell room

end AliasConsole.Config
