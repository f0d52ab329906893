import AliasConsole.Text.Basic

/-!
# History

The history is the sequence of submitted lines, without lines of spaces only
and without immediate repetitions, and a cursor that walks back from the newest
entry.  While the cursor is off the history the user sees the line being
edited; when browsing begins that line is kept, and it is handed back when
browsing ends.
-/

namespace AliasConsole

/-- The entries, oldest first, the number of steps back from the newest entry
while browsing, and the line kept for the end of browsing. -/
structure History where
  entries : List Text
  cursor : Option Nat
  pending : Text
deriving DecidableEq, Repr

namespace History

def fresh : History := ⟨[], none, []⟩

def isBrowsing (h : History) : Bool := h.cursor.isSome

/-- The line has a character other than the space and does not repeat the
newest entry. -/
def records (h : History) (line : Text) : Bool :=
  line.any (· != ' ') && h.entries.getLast? != some line

/-- Takes a submitted line in and stops browsing. -/
def submit (h : History) (line : Text) : History :=
  ⟨if h.records line then h.entries ++ [line] else h.entries, none, []⟩

/-- The entry a number of steps back from the newest. -/
def entryAt (h : History) (back : Nat) : Text :=
  (h.entries[h.entries.length - back - 1]?).getD []

/-- The number of steps back that one more step would reach. -/
def nextBack (h : History) : Nat :=
  match h.cursor with
  | none => 0
  | some back => back + 1

/-- One step back in time: the shown line and the history after the step.  At
the oldest entry nothing changes. -/
def recallOlder (h : History) (current : Text) : Text × History :=
  if h.entries.length ≤ h.nextBack then (current, h)
  else
    let after : History :=
      ⟨h.entries, some h.nextBack, if h.isBrowsing then h.pending else current⟩
    (after.entryAt h.nextBack, after)

/-- One step forward in time; the step away from the newest entry shows the
kept line again. -/
def recallNewer (h : History) (current : Text) : Text × History :=
  match h.cursor with
  | none => (current, h)
  | some 0 => (h.pending, { h with cursor := none })
  | some (back + 1) => (h.entryAt back, { h with cursor := some back })

end History

end AliasConsole
