import AliasConsole.Session.Submit

/-!
# Plugin packages

Plugins are modules, found under paths of names joined by points.  Importing a
module fails or gives a contribution: what its hook does, and what it exports.
Only commands among the exports are registered.  A package is a module with
members.  Loading a package brings in its members by increasing name; a member
that cannot be imported is skipped, and a member with an entry point of its own
is entered there.
-/

namespace AliasConsole

/-- Something that a module exports: a command, or anything else. -/
inductive Export (W : Type) where
  | command (request : Registration W (Script W))
  | other (v : Value)

def Export.command? {W : Type} : Export W → Option (Registration W (Script W))
  | command request => some request
  | other _ => none

/-- What a module adds to a console. -/
structure Contribution (W : Type) where
  /-- What is done first. -/
  hook : Script W
  /-- What is looked through for commands after it, in order. -/
  exports : List (Export W)

namespace Contribution

variable {W : Type}

/-- A module that adds nothing. -/
def none : Contribution W := ⟨.reply .null, []⟩

def commands (c : Contribution W) : List (Registration W (Script W)) :=
  c.exports.filterMap Export.command?

end Contribution

/-- A module, with what importing it gives; a package has members besides. -/
inductive PluginModule (W : Type) where
  | plain (body : Except Fault (Contribution W))
  | package (body : Except Fault (Contribution W)) (members : List (Text × PluginModule W))

namespace PluginModule

variable {W : Type}

def body : PluginModule W → Except Fault (Contribution W)
  | plain body => body
  | package body _ => body

def members : PluginModule W → List (Text × PluginModule W)
  | plain _ => []
  | package _ members => members

/-- The module is no package. -/
def isPlain : PluginModule W → Bool
  | plain _ => true
  | package .. => false

/-- The name of a member of a module; a module at the top has no module above. -/
def joinName (above name : Text) : Text :=
  if above.isEmpty then name else above ++ '.' :: name

def notFound (above full : Text) (parent : PluginModule W) : Fault :=
  .saying .missingModule
    ("No module named ".toList ++ Text.quoted full ++
      if parent.isPlain then "; ".toList ++ Text.quoted above ++ " is not a package".toList
      else [])

/-- Imports the modules along a path that starts at a member of `parent`, which
is itself called `above`, and gives the last one. -/
def follow (above : Text) (parent : PluginModule W) : List Text → Except Fault (PluginModule W)
  | [] => .ok parent
  | name :: rest =>
    let full := joinName above name
    match parent.members.lookup name with
    | none => .error (notFound above full parent)
    | some m => do
      let _ ← m.body
      follow full m rest

/-- Imports a module by its name from all modules there are. -/
def find (modules : List (Text × PluginModule W)) (name : Text) :
    Except Fault (PluginModule W) :=
  match name with
  | [] => .error (.saying .invalidValue "Empty module name".toList)
  | '.' :: _ =>
    .error (.saying .wrongType
      ("the 'package' argument is required to perform a relative import for ".toList ++
        Text.quoted name))
  | _ => follow [] (.package (.ok .none) modules) (Text.pieces '.' name)

/-- The name of the module through which a member is entered. -/
def entryName : Text := "entrypoint".toList

def entry? (m : PluginModule W) : Option (PluginModule W) :=
  (m.members.lookup entryName).filter isPlain

/-- A member that loading brings in: its full name and what importing it
gives. -/
def target (above name : Text) (m : PluginModule W) : Text × Except Fault (Contribution W) :=
  let full := joinName above name
  match m.entry? with
  | none => (full, m.body)
  | some entry => (joinName full entryName, do
    let _ ← m.body
    entry.body)

/-- A member takes part unless its name is empty, starts with a low line or has a
point in it. -/
def isPublic (name : Text) : Bool :=
  !name.isEmpty && name.head? != some '_' && !name.contains '.'

/-- The members that loading brings in, by increasing name. -/
def targets (above : Text) (m : PluginModule W) :
    List (Text × Except Fault (Contribution W)) :=
  ((m.members.filter fun entry => isPublic entry.1).mergeSort
    fun a b => !Text.before b.1 a.1).map fun entry => target above entry.1 entry.2

end PluginModule

namespace Session

variable {W : Type}

def skippedText (name : Text) : Text := "Skipping plugin module ".toList ++ name

def loadedText (name : Text) (added : Nat) : Text :=
  "Loaded ".toList ++ name ++ " (".toList ++ Text.ofNat added ++ " commands)".toList

/-- Takes in what a module adds; lines may be submitted on the way, `depth` levels
deep. -/
def takeIn (depth : Nat) (c : Contribution W) : Action W Unit := do
  let _ ← perform (submit depth) c.hook
  registerAll c.commands

/-- Loads one module and gives the number of commands that it added.  A module
that cannot be imported adds none; only a fault that nothing may swallow passes
through. -/
def loadModule (depth : Nat) (name : Text) (imported : Except Fault (Contribution W)) :
    Action W Nat := do
  match imported with
  | .error fault =>
    if fault.kind.isDeparture then throw fault
    report .error loaderLogger (skippedText name)
    return 0
  | .ok contribution =>
    let before := (← get).registry.size
    takeIn depth contribution
    let added := (← get).registry.size - before
    report .debug loaderLogger (loadedText name added)
    return added

/-- Loads modules in order and gives the number of commands that they added. -/
def loadModules (depth : Nat) : List (Text × Except Fault (Contribution W)) → Action W Nat
  | [] => return 0
  | (name, imported) :: rest => do
    let added ← loadModule depth name imported
    return added + (← loadModules depth rest)

/-- The refusal of a package that is a plain module. -/
def plainPackage (package : Text) : Fault :=
  .saying .failure
    ("Plugin package '".toList ++ package ++
      "' is a plain module; commands must live in modules inside a package directory.".toList)

/-- Loads a package by its name from all modules there are, and gives the number
of commands that were added. -/
def loadPackage (depth : Nat) (modules : List (Text × PluginModule W)) (package : Text) :
    Action W Nat :=
  match PluginModule.find modules package with
  | .error fault => throw fault
  | .ok m =>
    if m.isPlain then throw (plainPackage package)
    else loadModules depth (m.targets package)

end Session

/-! ## Plugin folders

A plugin package lies in a folder.  A file in it is a module.  A folder in it is
a package if it says what importing it gives, and it may have a module through
which it is entered.  Of a package and a file of one name the package is the
module.
-/

/-- What lies in a folder under a name. -/
inductive FolderItem (W : Type) where
  | file (body : Except Fault (Contribution W))
  | folder (body entry : Option (Except Fault (Contribution W)))

namespace FolderItem

variable {W : Type}

def file? : FolderItem W → Option (PluginModule W)
  | file body => some (.plain body)
  | folder .. => none

/-- The package of a folder; a folder that does not say what importing it gives
is none. -/
def package? : FolderItem W → Option (PluginModule W)
  | folder (some body) entry =>
    some (.package body ((entry.map fun body => (PluginModule.entryName, .plain body)).toList))
  | _ => none

end FolderItem

/-- The modules in a folder: its packages, then its files, of which a package
hides those with its name. -/
def PluginModule.ofFolder {W : Type} (items : List (Text × FolderItem W)) :
    List (Text × PluginModule W) :=
  items.filterMap (fun item => item.2.package?.map fun m => (item.1, m)) ++
    items.filterMap fun item =>
      if items.any fun other => other.1 = item.1 && other.2.package?.isSome then none
      else item.2.file?.map fun m => (item.1, m)

end AliasConsole
