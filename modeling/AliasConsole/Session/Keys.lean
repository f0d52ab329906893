import AliasConsole.Session.Submit

/-!
# Keys

The control keys of the console.  Only the key that submits the typed line has
an answer; it clears the line, unless submitting ended in a fault.
-/

namespace AliasConsole

inductive Key where
  | toggle
  | close
  | historyUp
  | historyDown
  | backspace
  | submit
  | autocomplete
deriving DecidableEq, Repr

def Key.ofName? (name : Text) : Option Key :=
  [("toggle", toggle), ("close", close), ("history-up", historyUp),
    ("history-down", historyDown), ("backspace", backspace), ("submit", submit),
    ("autocomplete", autocomplete)].lookup (String.ofList name)

namespace Session

variable {W : Type}

def setOpen (isOpen : Bool) : Action W Unit := modify fun s => { s with isOpen }

def setTyped (typed : Text) : Action W Unit := modify fun s => { s with typed }

def typeText (text : Text) : Action W Unit :=
  modify fun s => { s with typed := s.typed ++ text }

/-- Completes the typed line and keeps the suggestions. -/
def autocomplete : Action W Completion := do
  let s ← get
  let completion ← reading (AliasConsole.autocomplete s.registry .full s.typed)
  modify fun s =>
    { s with typed := completion.line, suggestions := completion.suggestions }
  unless completion.suggestions.isEmpty do
    report .debug consoleLogger
      ("suggestions:\n".toList ++ AliasConsole.listing completion.suggestions)
  return completion

def browse (step : History → Text → Text × History) : Action W Unit :=
  modify fun s =>
    let (typed, history) := step s.history s.typed
    { s with typed, history }

/-- Submits the typed line and clears it. -/
def submitTyped (depth : Nat) : Action W Result := do
  let result ← submit depth (← get).typed
  setTyped []
  return result

/-- What a key does; commands may submit lines of their own, `depth` levels deep. -/
def press (depth : Nat) : Key → Action W (Option Result)
  | .close => do
    setOpen false
    return none
  | .toggle => do
    setOpen (!(← get).isOpen)
    return none
  | .historyUp => do
    browse History.recallOlder
    return none
  | .historyDown => do
    browse History.recallNewer
    return none
  | .backspace => do
    setTyped (← get).typed.dropLast
    return none
  | .submit => do return some (← submitTyped depth)
  | .autocomplete => do
    let _ ← autocomplete
    return none

end Session

end AliasConsole
