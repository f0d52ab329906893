import AliasConsole.Text.Printable

/-!
# Faults

A fault is why a registration, a live source, a command or a step of the start
was given up.  Faults are sorted by cause, and causes form families: a missing
item, an unusable value, a source that ran dry, any other ordinary failure, a
request to end the program, and whatever else no command may swallow.
-/

namespace AliasConsole

/-- How a cause is met by those who go on after some faults and not after
others. -/
inductive FaultFamily where
  | lookup
  | value
  | exhaustion
  | ordinary
  | exit
  | departure
deriving DecidableEq, Repr

/-- The cause of a fault.  A cause that the program does not know by name has its
name and its family. -/
inductive FaultKind where
  | outOfRange
  | missingKey
  | lookup
  | invalidValue
  | badEncoding
  | undecodable
  | configuration
  | wrongType
  | missingAttribute
  | failure
  | tooDeep
  | unimplemented
  | divisionByZero
  | overflow
  | system
  | missingFile
  | isDirectory
  | notDirectory
  | forbidden
  | exhausted
  | endOfInput
  | exit
  | interrupt
  | missingModule
  | other (name : Text) (family : FaultFamily)
deriving DecidableEq, Repr

def FaultKind.name : FaultKind → Text
  | .outOfRange => "IndexError".toList
  | .missingKey => "KeyError".toList
  | .lookup => "LookupError".toList
  | .invalidValue => "ValueError".toList
  | .badEncoding => "UnicodeError".toList
  | .undecodable => "UnicodeDecodeError".toList
  | .configuration => "ConfigurationError".toList
  | .wrongType => "TypeError".toList
  | .missingAttribute => "AttributeError".toList
  | .failure => "RuntimeError".toList
  | .tooDeep => "RecursionError".toList
  | .unimplemented => "NotImplementedError".toList
  | .divisionByZero => "ZeroDivisionError".toList
  | .overflow => "OverflowError".toList
  | .system => "OSError".toList
  | .missingFile => "FileNotFoundError".toList
  | .isDirectory => "IsADirectoryError".toList
  | .notDirectory => "NotADirectoryError".toList
  | .forbidden => "PermissionError".toList
  | .exhausted => "StopIteration".toList
  | .endOfInput => "EOFError".toList
  | .exit => "SystemExit".toList
  | .interrupt => "KeyboardInterrupt".toList
  | .missingModule => "ModuleNotFoundError".toList
  | .other name _ => name

def FaultKind.family : FaultKind → FaultFamily
  | .outOfRange | .missingKey | .lookup => .lookup
  | .invalidValue | .badEncoding | .undecodable | .configuration => .value
  | .exhausted => .exhaustion
  | .exit => .exit
  | .interrupt => .departure
  | .other _ family => family
  | _ => .ordinary

/-- Something that was asked for is not there. -/
def FaultKind.isLookup (kind : FaultKind) : Bool := kind.family == .lookup

/-- A value that was given cannot be used. -/
def FaultKind.isValue (kind : FaultKind) : Bool := kind.family == .value

/-- A request to end the program. -/
def FaultKind.isExit (kind : FaultKind) : Bool := kind.family == .exit

/-- A fault that no command may swallow. -/
def FaultKind.isDeparture (kind : FaultKind) : Bool :=
  kind.isExit || kind.family == .departure

/-- A cause with what is known about the case; a missing key is kept as it was
asked for. -/
structure Fault where
  kind : FaultKind
  detail : Option Text
deriving DecidableEq, Repr

namespace Fault

def saying (kind : FaultKind) (words : Text) : Fault := ⟨kind, some words⟩

def silent (kind : FaultKind) : Fault := ⟨kind, none⟩

/-- The words of a fault; a missing key is quoted. -/
def message (fault : Fault) : Text :=
  match fault.kind, fault.detail with
  | .missingKey, some key => Text.quoted key
  | _, some words => words
  | _, none => []

/-- An index lies beyond the end of a list. -/
def outOfRange : Fault := saying .outOfRange "list index out of range".toList

/-- A value that is cut into lines and is no text. -/
def notText : Fault := silent .missingAttribute

/-- Commands submitted each other too deeply, or values were read that lie too
deep inside each other. -/
def tooDeep : Fault := saying .tooDeep "maximum recursion depth exceeded".toList

/-- Values lie too deep inside each other to be written. -/
def nestedTooDeep : Fault :=
  saying .tooDeep
    "maximum recursion depth exceeded while getting the repr of an object".toList

/-- An integer has more digits than may be written. -/
def integerTooLong (limit : Nat) : Fault :=
  saying .invalidValue
    ("Exceeds the limit (".toList ++ Text.ofNat limit ++
      " digits) for integer string conversion; ".toList ++
      "use sys.set_int_max_str_digits() to increase the limit".toList)

end Fault

end AliasConsole
