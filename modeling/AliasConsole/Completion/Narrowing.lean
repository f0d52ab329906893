import AliasConsole.Completion.Matching
import AliasConsole.Registry
import AliasConsole.Text.Casing

/-!
# Narrowing

Completion goes through the tokens from left to right and keeps the commands
that are still alive.  At each position every living command that covers it
gives its alias groups once, in the order of registration; the commands with a
match in the preferred bucket stay alive, or those with a match in the second
bucket if the preferred one is empty.
-/

namespace AliasConsole

/-- The matches of all living commands at one position. -/
structure Narrowing where
  token : Text
  found : List Match

namespace Narrowing

def inBucket (n : Narrowing) (bucket : Bucket) : List Match :=
  n.found.filter (·.bucket == bucket)

/-- The matches of the preferred bucket that has any. -/
def selected (n : Narrowing) : List Match :=
  match n.inBucket .startsWith with
  | [] => n.inBucket .contains
  | starts => starts

/-- The command stays alive for the next token. -/
def keeps (n : Narrowing) (command : Nat) : Bool := n.selected.any (·.command == command)

end Narrowing

abbrev Entry (W : Type) := Command W × Nat

/-- The number of positions of a command that completion looks at. -/
def Command.reach {W : Type} (limited : Bool) (c : Command W) : Nat :=
  if limited then c.fixed else c.slots.length

/-- The groups of the living commands that cover a position, each evaluated
once and in order. -/
def evaluateAt {W : Type} (limited : Bool) (position : Nat) :
    List (Entry W) → Reads W (List (Nat × List AliasGroup))
  | [] => pure []
  | (c, index) :: rest =>
    if position < c.reach limited then do
      let groups ← c.groupsAt position
      return (index, groups) :: (← evaluateAt limited position rest)
    else evaluateAt limited position rest

/-- The matches of a token among evaluated groups. -/
def Narrowing.of (token : Text) (evaluated : List (Nat × List AliasGroup)) : Narrowing :=
  ⟨token, evaluated.flatMap fun (command, groups) =>
    groupMatches (Text.lower token) command groups⟩

def narrowFrom {W : Type} (limited : Bool) :
    Nat → List (Entry W) → List Text → Reads W (List Narrowing)
  | _, _, [] => pure []
  | position, alive, token :: rest => do
    let n := Narrowing.of token (← evaluateAt limited position alive)
    return n :: (← narrowFrom limited (position + 1) (alive.filter fun e => n.keeps e.2) rest)

/-- Narrows all tokens, starting with all alias commands. -/
def narrow {W : Type} (r : Registry W) (limited : Bool) (tokens : List Text) :
    Reads W (List Narrowing) :=
  narrowFrom limited 0 r.commands.zipIdx tokens

/-! ## Completed tokens

A token is replaced by the longest common beginning, up to case, of the best
aliases of the selected bucket, in the case of the first of them.  It is locked
when no selected alias is longer than that.
-/

structure CompletedToken where
  text : Text
  locked : Bool
  /-- The text is the beginning of an alias. -/
  replaced : Bool
deriving DecidableEq, Repr

/-- The number of characters at the start of two texts that are equal up to
case. -/
def commonStart : Text → Text → Nat
  | c :: rest, d :: more => if sameFold c d then commonStart rest more + 1 else 0
  | _, _ => 0

/-- The length of the common beginning of a text and all texts of a list. -/
def commonLength (reference : Text) (aliases : List Text) : Nat :=
  aliases.foldl (fun n spelling => min n (commonStart reference spelling)) reference.length

def longestLength (reference : Text) (aliases : List Text) : Nat :=
  aliases.foldl (fun n spelling => max n spelling.length) reference.length

/-- The token that a list of selected aliases turns a typed token into. -/
def completeToken (typed : Text) : List Text → CompletedToken
  | [] => ⟨typed, false, false⟩
  | reference :: rest =>
    let common := commonLength reference rest
    if common = 0 then ⟨typed, false, false⟩
    else ⟨reference.take common, longestLength reference rest == common, true⟩

def Narrowing.completed (n : Narrowing) : CompletedToken :=
  completeToken n.token (n.selected.map (·.best))

end AliasConsole
