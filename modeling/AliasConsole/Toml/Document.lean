import AliasConsole.Toml.Table

/-!
# TOML documents

A document is a sequence of lines: a header opens a table or adds one to a list
of tables, an entry adds to the table opened last.  A table may be opened once;
tables that keys with several parts created may not be opened later, and what
an inline value holds can never be changed.
-/

namespace AliasConsole.Toml

/-- A document while it is read. -/
structure Draft where
  table : Table
  /-- The path of the table opened last. -/
  header : List Text
  /-- The paths that may not be opened again. -/
  opened : List (List Text)
  /-- The paths that may not be opened after the next header. -/
  pending : List (List Text)
  /-- The paths of inline values. -/
  frozen : List (List Text)

namespace Draft

def empty : Draft := ⟨[], [], [], [], []⟩

/-- What a header settles before it is read. -/
def settle (d : Draft) : Draft := { d with opened := d.opened ++ d.pending, pending := [] }

def openTable (path : List Text) (d : Draft) : Except Refusal Draft :=
  if d.opened.contains path || isFrozen d.frozen path then .error .malformed
  else match changeAt true some path d.table with
    | some table => .ok { d with table, header := path, opened := path :: d.opened }
    | none => .error .malformed

/-- Adds an empty table to the list of tables under a key. -/
def appendTable (key : Text) (t : Table) : Option Table :=
  match t.lookup key with
  | none => some (t ++ [(key, .list [.table []])])
  | some (.list items) => some (Table.put key (.list (items ++ [.table []])) t)
  | some _ => none

/-- Opens a new table in the list of tables under a path; what was known about
paths below the list is forgotten. -/
def openListed (path : List Text) (d : Draft) : Except Refusal Draft :=
  if isFrozen d.frozen path then .error .malformed
  else
    let outside := fun (p : List Text) => !path.isPrefixOf p
    let (parent, last) := splitKey path
    match changeAt true (appendTable last) parent d.table with
    | some table =>
      .ok { d with
        table
        header := path
        opened := path :: d.opened.filter outside
        frozen := d.frozen.filter outside }
    | none => .error .malformed

/-- The paths of the tables that a key with several parts goes through. -/
def passed (header : List Text) (path : List Text) : List (List Text) :=
  (List.range (path.length - 1)).map fun n => header ++ path.take (n + 1)

/-- Adds an entry to the table opened last. -/
def add (path : List Text) (v : Value) (d : Draft) : Except Refusal Draft :=
  let (parent, last) := splitKey path
  let through := passed d.header path
  if through.any d.opened.contains || isFrozen d.frozen (d.header ++ parent) then
    .error .malformed
  else match changeAt true (addEntry last v) (d.header ++ parent) d.table with
    | some table =>
      .ok { d with
        table
        pending := d.pending ++ through
        frozen := if isClosed v then (d.header ++ path) :: d.frozen else d.frozen }
    | none => .error .malformed

/-- Reads a header after its first bracket. -/
def readHeader (t : Text) (d : Draft) : Except Refusal (Draft × Text) :=
  match t with
  | '[' :: rest => do
    let (path, after) ← key (skipSpaces rest)
    let d ← d.settle.openListed path
    match after? "]]".toList after with
    | some rest => return (d, rest)
    | none => .error .malformed
  | _ => do
    let (path, after) ← key (skipSpaces t)
    let d ← d.settle.openTable path
    match after with
    | ']' :: rest => return (d, rest)
    | _ => .error .malformed

def readStatement (room : Room) (t : Text) (d : Draft) : Except Refusal (Draft × Text) :=
  match t with
  | '[' :: rest => d.readHeader rest
  | c :: _ =>
    if isBareKeyChar c || c = '"' || c = '\'' then do
      let ((path, v), after) ← entry room (2 * t.length + 2) t
      return (← d.add path v, after)
    else .ok (d, t)
  | [] => .ok (d, t)

/-- Reads the lines of a document, at most `fuel` of them. -/
def readLines (room : Room) : Nat → Text → Draft → Except Refusal Draft
  | 0, _, d => .ok d
  | fuel + 1, t, d => do
    let (d, after) ← d.readStatement room (skipSpaces t)
    match ← skipComment (skipSpaces after) with
    | [] => return d
    | '\n' :: rest => readLines room fuel rest d
    | _ => .error .malformed

end Draft

/-- Line ends of two characters become one. -/
def unifyLineEnds : Text → Text
  | '\r' :: '\n' :: rest => '\n' :: unifyLineEnds rest
  | c :: rest => c :: unifyLineEnds rest
  | [] => []

/-- The entries of a document. -/
def read (room : Room) (t : Text) : Except Refusal Table :=
  let t := unifyLineEnds t
  (Draft.readLines room (t.length + 1) t .empty).map (·.table)

end AliasConsole.Toml
