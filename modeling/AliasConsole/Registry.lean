import AliasConsole.Script

/-!
# The registry

The registry keeps alias commands and literal commands, each in the order of
their registration.  A registration is refused whole or appends one command.
An alias command is found by its fixed tokens: the first command in order all
of whose fixed tokens are aliases at their positions.  A literal command is
found by its text: the longest one that the line begins with up to a space or
the end of the line.
-/

namespace AliasConsole

/-- A command whose first tokens select it. -/
structure Command (W : Type) where
  slots : List (Candidates W)
  fixed : Nat
  callback : Callback W

/-- A command with a literal text. -/
structure Literal (W : Type) where
  text : Text
  callback : Callback W

/-- All commands, oldest first. -/
structure Registry (W : Type) where
  commands : List (Command W)
  literals : List (Literal W)

namespace Registry

variable {W : Type}

def empty : Registry W := ⟨[], []⟩

def size (r : Registry W) : Nat := r.commands.length + r.literals.length

def badFixed (fixed : Int) (positions : Nat) : Fault :=
  .saying .configuration
    ("num_fixed_tokens=".toList ++ Text.ofInt fixed ++
      " must be between 0 and the number of generators (".toList ++ Text.ofNat positions ++
      ").".toList)

def blankLiteral : Fault :=
  .saying .configuration "Legacy command text must not be blank.".toList

def registerAliases (slots : List (SlotArgument W)) (fixed : Option Int)
    (callback : Callback W) (r : Registry W) : Except Fault (Registry W) := do
  let candidates ← SlotArgument.coerceAll slots
  let count := fixed.getD candidates.length
  if count < 0 || candidates.length < count then .error (badFixed count candidates.length)
  else .ok { r with commands := r.commands ++ [⟨candidates, count.toNat, callback⟩] }

/-- Appends a command with a literal text. -/
def registerLiteral (text : Text) (callback : Callback W) (r : Registry W) :
    Except Fault (Registry W) :=
  if text.all isBlank then .error blankLiteral
  else .ok { r with literals := r.literals ++ [⟨text, callback⟩] }

def register (r : Registry W) : Registration W (Script W) → Except Fault (Registry W)
  | .aliases slots fixed callback => r.registerAliases slots fixed callback
  | .literal text callback => r.registerLiteral text callback

end Registry

namespace Command

variable {W : Type}

/-- The groups that a position accepts now. -/
def groupsAt (c : Command W) (position : Nat) : Reads W (List AliasGroup) :=
  match c.slots[position]? with
  | some slot => slot.groups
  | none => throw .outOfRange

/-- The next `count` tokens from a position on are aliases there.  Positions
are evaluated one after the other, up to the first token that is none. -/
def acceptsFrom (c : Command W) (tokens : List Text) : Nat → Nat → Reads W Bool
  | 0, _ => pure true
  | count + 1, position => do
    let groups ← c.groupsAt position
    match tokens[position]? with
    | none => throw .outOfRange
    | some token =>
      if groups.any (·.contains token) then c.acceptsFrom tokens count (position + 1)
      else pure false

/-- All fixed tokens are there and are aliases at their positions. -/
def accepts (c : Command W) (tokens : List Text) : Reads W Bool :=
  if tokens.length < c.fixed then pure false else c.acceptsFrom tokens c.fixed 0

end Command

/-- A source that runs dry in the middle of a match is an ordinary failure. -/
def Fault.duringMatch (fault : Fault) : Fault :=
  match fault.kind.family with
  | .exhaustion => .saying .failure "generator raised StopIteration".toList
  | _ => fault

/-- The command that a line selects. -/
inductive Selection where
  | aliases (index : Nat)
  | literal (index : Nat)
deriving DecidableEq, Repr

def Selection.kindText : Selection → Text
  | .aliases _ => "alias".toList
  | .literal _ => "legacy".toList

def Selection.index : Selection → Nat
  | .aliases index => index
  | .literal index => index

namespace Literal

variable {W : Type}

/-- The line is the literal text, or goes on with a space after it. -/
def admits (l : Literal W) (line : Text) : Bool :=
  l.text.isPrefixOf line &&
    match line.drop l.text.length with
    | [] => true
    | c :: _ => c == ' '

end Literal

namespace Registry

variable {W : Type}

/-- The index of the first command from `index` on that accepts the tokens. -/
def resolveExactFrom (tokens : List Text) : Nat → List (Command W) → Reads W (Option Nat)
  | _, [] => pure none
  | index, c :: rest => do
    if ← c.accepts tokens then pure (some index) else resolveExactFrom tokens (index + 1) rest

/-- The first command all of whose fixed tokens match. -/
def resolveExact (r : Registry W) (tokens : List Text) : Reads W (Option Nat) :=
  tryCatch (resolveExactFrom tokens 0 r.commands) fun fault => throw fault.duringMatch

/-- The longest literal that admits the line, among those not longer than the
best one so far the first. -/
def longestLiteral (line : Text) : Option Nat → Nat → Nat → List (Literal W) → Option Nat
  | best, _, _, [] => best
  | best, bestSize, index, l :: rest =>
    if bestSize < l.text.length && l.admits line then
      longestLiteral line (some index) l.text.length (index + 1) rest
    else longestLiteral line best bestSize (index + 1) rest

/-- The longest literal that the line begins with, on the border of a space. -/
def resolveLiteral (r : Registry W) (line : Text) : Option Nat :=
  longestLiteral line none 0 0 r.literals

/-- Alias commands come before literal commands. -/
def resolve (r : Registry W) (tokens : List Text) (line : Text) : Reads W (Option Selection) := do
  match ← r.resolveExact tokens with
  | some index => pure (some (.aliases index))
  | none => pure ((r.resolveLiteral line).map .literal)

/-- The behaviour of the selected command. -/
def callback? (r : Registry W) : Selection → Option (Callback W)
  | .aliases index => r.commands[index]?.map (·.callback)
  | .literal index => r.literals[index]?.map (·.callback)

end Registry

end AliasConsole
