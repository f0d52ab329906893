import AliasConsole.Escape
import AliasConsole.Session.Keys

/-!
# The line editor

The editor holds the line under the cursor and a menu of completions.  Its keys
drive the console: the tabulator completes the line and lists the suggestions,
the arrows walk through the history, a function key shows or hides the console
and the escape key closes it.  While the menu shows completions the arrows
belong to the menu, and the escape key only dismisses it.
-/

namespace AliasConsole

/-- The line, the cursor, and the entries of the menu if there is one. -/
structure Editor where
  text : Text
  cursor : Nat
  menu : Option (List Text)
deriving DecidableEq, Repr

inductive EditorKey where
  | tab
  | f10
  | escape
  | up
  | down
deriving DecidableEq, Repr

def EditorKey.ofName? (name : Text) : Option EditorKey :=
  [("tab", tab), ("f10", f10), ("escape", escape), ("up", up), ("down", down)].lookup
    (String.ofList name)

/-- What pressing a key did: the number of bindings that ran, whether the
session with the user ended, and what was printed. -/
structure KeyEffect where
  bindings : Nat
  ended : Bool
  printed : Text
deriving DecidableEq, Repr

namespace Editor

variable {W : Type}

def empty : Editor := ⟨[], 0, none⟩

def showsMenu (e : Editor) : Bool := !(e.menu.getD []).isEmpty

def withText (e : Editor) (text : Text) : Editor := { e with text, cursor := text.length }

def insert (e : Editor) (text : Text) : Editor := e.withText (e.text ++ text)

/-- Lets a console key work on the line.  The keys of the editor submit nothing. -/
def drive (key : Key) (e : Editor) : Action W Editor := do
  Session.setTyped e.text
  let _ ← Session.press 0 key
  return e.withText (← get).typed

/-- Lets a console key change the visibility; hiding the console ends the
session with the user. -/
def visibility (key : Key) : Action W KeyEffect := do
  let _ ← Session.press 0 key
  return ⟨1, !(← get).isOpen, []⟩

/-- The list of suggestions that is printed after a completion. -/
def printedListing (inStyle : Bool) (suggestions : List Suggestion) : Text :=
  let text := listing suggestions
  if text.isEmpty then [] else styled inStyle .dim text ++ ['\n']

/-- What a key does to the editor and the console.  The editor is given back
also when the console ends in a fault. -/
def press (inStyle : Bool) (key : EditorKey) (e : Editor) :
    Editor × Action W (Editor × KeyEffect) :=
  match key with
  | .tab =>
    let e := { e with menu := none }
    (e, do
      let e ← e.drive .autocomplete
      return (e, ⟨1, false, printedListing inStyle (← get).suggestions⟩))
  | .f10 => (e, do return (e, ← visibility .toggle))
  | .escape =>
    if e.showsMenu then
      let e := { e with menu := none }
      (e, pure (e, ⟨1, false, []⟩))
    else (e, do return (e, ← visibility .close))
  | .up =>
    if e.showsMenu then (e, pure (e, ⟨0, false, []⟩))
    else (e, do return (← e.drive .historyUp, ⟨1, false, []⟩))
  | .down =>
    if e.showsMenu then (e, pure (e, ⟨0, false, []⟩))
    else (e, do return (← e.drive .historyDown, ⟨1, false, []⟩))

/-- Takes the line away from the editor and submits it. -/
def submit (depth : Nat) (e : Editor) : Editor × Action W Result :=
  (e.withText [], do
    Session.setTyped e.text
    Session.submitTyped depth)

/-- The completions of the token before the cursor, and the number of characters
in front of the cursor that each of them replaces. -/
def completions (text : Text) : Action W (List Text × Nat) := do
  let s ← get
  let words ← tryCatch (Session.reading (suggest s.registry text)) fun fault =>
    throw fault.duringMatch
  return (words, (currentToken text).length)

end Editor

end AliasConsole
