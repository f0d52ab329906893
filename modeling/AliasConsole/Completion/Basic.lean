import AliasConsole.Completion.Narrowing
import AliasConsole.Escape
import AliasConsole.Text.Basic

/-!
# Completion

A completion holds the completed line, its tokens and the suggestions of every
position.  The suggestions of a position are all its matches, the preferred
bucket first and each bucket by rank; equally ranked ones stay in the order of
registration.  The menu offers the aliases of the bucket that the last token
selects.
-/

namespace AliasConsole

/-- An alias group that matches the token at a position. -/
structure Suggestion where
  position : Nat
  bucket : Bucket
  found : Match
deriving DecidableEq, Repr

structure Completion where
  line : Text
  tokens : List CompletedToken
  suggestions : List Suggestion
deriving DecidableEq, Repr

structure CompletionOptions where
  /-- Look at the fixed positions of each command only. -/
  limitToFixed : Bool
  /-- Collect the suggestions. -/
  collectSuggestions : Bool
  /-- Answer the completed line instead of the typed one. -/
  replaceLine : Bool
deriving DecidableEq, Repr

/-- All positions, with suggestions and a completed line. -/
def CompletionOptions.full : CompletionOptions := ⟨false, true, true⟩

/-- The matches of a bucket by rank, equally ranked ones in their order. -/
def Narrowing.ranked (n : Narrowing) (bucket : Bucket) : List Match :=
  (n.inBucket bucket).mergeSort fun a b => !b.better a

def Narrowing.suggestions (n : Narrowing) (position : Nat) : List Suggestion :=
  [Bucket.startsWith, Bucket.contains].flatMap fun bucket =>
    (n.ranked bucket).map (Suggestion.mk position bucket)

def suggestionsFrom : Nat → List Narrowing → List Suggestion
  | _, [] => []
  | position, n :: rest => n.suggestions position ++ suggestionsFrom (position + 1) rest

/-- The completed tokens in a line: a space follows every token but the last,
and the last one too when it is locked or the typed line ended in a blank. -/
def completedLine (spaceAfterLast : Bool) : List CompletedToken → Text
  | [] => []
  | [token] => token.text ++ if spaceAfterLast || token.locked then [' '] else []
  | token :: rest => token.text ++ ' ' :: completedLine spaceAfterLast rest

/-- The completion of a line from the narrowings of its tokens. -/
def Completion.ofNarrowings (options : CompletionOptions) (line : Text)
    (narrowings : List Narrowing) : Completion :=
  let tokens := narrowings.map Narrowing.completed
  { line :=
      if options.replaceLine && !tokens.isEmpty then completedLine (endsWithSpace line) tokens
      else line
    tokens
    suggestions := if options.collectSuggestions then suggestionsFrom 0 narrowings else [] }

/-- Completes a line against the alias commands of a registry. -/
def autocomplete {W : Type} (r : Registry W) (options : CompletionOptions) (line : Text) :
    Reads W Completion := do
  return .ofNarrowings options line (← narrow r options.limitToFixed (tokenize line))

def Completion.suggestionsAt (c : Completion) (position : Nat) : List Suggestion :=
  c.suggestions.filter (·.position == position)

/-- The items of a list without later repetitions, after those already kept. -/
def distinctFrom (kept : List Text) : List Text → List Text
  | [] => kept
  | t :: rest => distinctFrom (if kept.contains t then kept else kept ++ [t]) rest

def distinct (items : List Text) : List Text := distinctFrom [] items

/-- The aliases of the bucket that a list of suggestions prefers. -/
def menuWords (suggestions : List Suggestion) : List Text :=
  let starts := suggestions.filter (·.bucket == .startsWith)
  distinct ((if starts.isEmpty then suggestions else starts).map (·.found.best))

/-- The words of the menu under a cursor at the end of a text; there are none
after a blank. -/
def suggest {W : Type} (r : Registry W) (text : Text) : Reads W (List Text) :=
  let tokens := tokenize text
  if tokens.isEmpty || endsWithSpace text then pure []
  else do
    let c ← autocomplete r { CompletionOptions.full with replaceLine := false } text
    return menuWords (c.suggestionsAt (tokens.length - 1))

/-- Suggestions in columns, one alias group per row. -/
def listing (suggestions : List Suggestion) : Text :=
  Columns.layout 1 2 (suggestions.map (·.found.aliases))

end AliasConsole
