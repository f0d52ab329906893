import AliasConsole.Proofs.Config.Precedence

/-!
# What stops a start

Loading with a fallback goes on with the defaults after a refusal.  Four kinds of
faults are no refusals and stop it: the bytes of the document are no text, the reader
of the document gives up, a value that a field is given cannot be written, and the path
of the log file leads nowhere.  A refusal stops it too if its notice cannot be put out.
-/

namespace AliasConsole

namespace Config

open Toml

variable {s : Surroundings} {environment : Environment} {source : Option (List Nat)}
  {document : Table} {fault : Fault}

section Fallback

variable {c : Config}

end Fallback

end Config

end AliasConsole
