import AliasConsole.Registry

/-!
# Usage lines

The usage line of a command shows, for every position, what may be typed there:
the canonical aliases of a fixed position joined by slashes, or a placeholder
where any token fits, where the candidates are live, or where there are none.
-/

namespace AliasConsole

def placeholderText (placeholder : Text) : Text := '<' :: placeholder ++ ['>']

def canonicalAliases (groups : List AliasGroup) : List Text := groups.filterMap (·.head?)

/-- The canonical aliases that a usage line shows at a position. -/
def shownAliases {W : Type} (isFixedPosition : Bool) : Candidates W → List Text
  | .fixed groups => if isFixedPosition then canonicalAliases groups else []
  | .live _ => []

def slotUsage {W : Type} (placeholder : Text) (isFixedPosition : Bool) (slot : Candidates W) :
    Text :=
  match shownAliases isFixedPosition slot with
  | [] => placeholderText placeholder
  | aliases => Text.joined ['/'] aliases

/-- The usage of the positions from `position` on, the first `fixed` of which
select the command. -/
def slotUsages {W : Type} (placeholder : Text) (fixed : Int) :
    Nat → List (Candidates W) → List Text
  | _, [] => []
  | position, slot :: rest =>
    slotUsage placeholder ((position : Int) < fixed) slot ::
      slotUsages placeholder fixed (position + 1) rest

def usageLine {W : Type} (placeholder : Text) (fixed : Int) (slots : List (Candidates W)) : Text :=
  Text.joined [' '] (slotUsages placeholder fixed 0 slots)

/-- The placeholder of the usage lines that the console shows. -/
def defaultPlaceholder : Text := "arg".toList

def Command.usage {W : Type} (c : Command W) : Text :=
  usageLine defaultPlaceholder c.fixed c.slots

def Registry.lines {W : Type} (r : Registry W) : List Text :=
  r.commands.map Command.usage ++ r.literals.map (·.text)

def Registry.listing {W : Type} (r : Registry W) : Text := Text.joined ['\n'] r.lines

end AliasConsole
