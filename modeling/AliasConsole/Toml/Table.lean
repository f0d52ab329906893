import AliasConsole.Toml.Number
import AliasConsole.Toml.Quote

/-!
# Tables and values in TOML

A table is a list of entries in the order in which they appear.  A change under
a path goes down through tables, which are created where they are missing, and
through the last element of a list of tables.
-/

namespace AliasConsole.Toml

/-- Entries in their order. -/
abbrev Table := List (Text × Value)

/-- Puts a value under a key, at the place of the key or at the end. -/
def Table.put (key : Text) (v : Value) : Table → Table
  | [] => [(key, v)]
  | (k, old) :: rest => if k = key then (key, v) :: rest else (k, old) :: Table.put key v rest

/-- The last item of a list if it is a table, and the items before it. -/
def lastTable? (items : List Value) : Option (List Value × Table) :=
  match items.getLast? with
  | some (.table inner) => some (items.dropLast, inner)
  | _ => none

/-- Changes the table under a path; `throughLists` allows the last elements of
lists on the way. -/
def changeAt (throughLists : Bool) (change : Table → Option Table) :
    List Text → Table → Option Table
  | [], t => change t
  | k :: path, t =>
    match t.lookup k with
    | none => (changeAt throughLists change path []).map fun inner => t ++ [(k, .table inner)]
    | some (.table inner) =>
      (changeAt throughLists change path inner).map fun inner => Table.put k (.table inner) t
    | some (.list items) =>
      match throughLists, lastTable? items with
      | true, some (before, inner) =>
        (changeAt throughLists change path inner).map fun inner =>
          Table.put k (.list (before ++ [.table inner])) t
      | _, _ => none
    | some _ => none

def addEntry (key : Text) (v : Value) (t : Table) : Option Table :=
  match t.lookup key with
  | some _ => none
  | none => some (t ++ [(key, v)])

/-- A key without its last part, and that part. -/
def splitKey (key : List Text) : List Text × Text := (key.dropLast, key.getLastD [])

/-- A value that later keys may not reach into. -/
def isClosed : Value → Bool
  | .list _ | .table _ => true
  | _ => false

/-- A path lies at or below one of the closed paths. -/
def isFrozen (frozen : List (List Text)) (path : List Text) : Bool :=
  frozen.any (·.isPrefixOf path)

/-- Adds the entry of a key with several parts to an inline table, whose closed
entries are listed. -/
def addInline (frozen : List (List Text)) (path : List Text) (v : Value) (t : Table) :
    Except Refusal Table :=
  let (parent, last) := splitKey path
  if isFrozen frozen path then .error .malformed
  else match changeAt false (addEntry last v) parent t with
    | some t => .ok t
    | none => .error .malformed

def found (t : Text) (rest : Text) : Except Refusal (Value × Text) := .ok (.text t, rest)

mutual

/-- A value with `room` for what lies inside it; `fuel` bounds the nesting and
the number of items. -/
def value (room : Room) : Nat → Text → Except Refusal (Value × Text)
  | 0, _ => .error .malformed
  | fuel + 1, t =>
    match quotedText? t with
    | some scan => scan.bind fun (body, rest) => found body rest
    | none =>
      match after? "true".toList t, after? "false".toList t with
      | some rest, _ => .ok (.bool true, rest)
      | _, some rest => .ok (.bool false, rest)
      | none, none =>
        match t with
        | '[' :: rest =>
          if room.left < room.array then .error .tooDeep
          else do
            let (items, after) ← arrayItems (room.without room.array) fuel (← skipToItem rest)
            return (.list items, after)
        | c :: rest =>
          if c.toNat = 0x7B then
            if room.left < room.inlineTable then .error .tooDeep
            else do
              let (entries, after) ←
                inlineEntries (room.without room.inlineTable) fuel [] [] (skipSpaces rest)
              return (.table entries, after)
          else number (c :: rest)
        | [] => .error .malformed

def arrayItems (room : Room) : Nat → Text → Except Refusal (List Value × Text)
  | 0, _ => .error .malformed
  | fuel + 1, t =>
    match t with
    | ']' :: rest => .ok ([], rest)
    | _ => do
      let (item, after) ← value room fuel t
      match ← skipToItem after with
      | ']' :: rest => return ([item], rest)
      | ',' :: rest =>
        let (items, after) ← arrayItems room fuel (← skipToItem rest)
        return (item :: items, after)
      | _ => .error .malformed

def entry (room : Room) : Nat → Text → Except Refusal ((List Text × Value) × Text)
  | 0, _ => .error .malformed
  | fuel + 1, t => do
    let (path, after) ← key t
    match after with
    | '=' :: rest =>
      let (v, after) ← value room fuel (skipSpaces rest)
      return ((path, v), after)
    | _ => .error .malformed

/-- The entries of an inline table up to its closing brace, added to those
before them.  Only the first place may be empty. -/
def inlineEntries (room : Room) :
    Nat → List (List Text) → Table → Text → Except Refusal (Table × Text)
  | 0, _, _, _ => .error .malformed
  | fuel + 1, frozen, before, t =>
    match t.isEmpty, before.isEmpty && startsWith (·.toNat == 0x7D) t with
    | true, _ => .error .malformed
    | false, true => .ok (before, t.drop 1)
    | false, false => do
      let ((path, v), after) ← entry room fuel t
      let table ← addInline frozen path v before
      match skipSpaces after with
      | ',' :: rest =>
        inlineEntries room fuel (if isClosed v then path :: frozen else frozen) table
          (skipSpaces rest)
      | c :: rest => if c.toNat = 0x7D then .ok (table, rest) else .error .malformed
      | [] => .error .malformed

end

end AliasConsole.Toml
