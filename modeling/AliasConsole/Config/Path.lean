import AliasConsole.Fault

/-!
# File paths

A configured path may start with a home directory and may mention environment
variables.  It is followed from the root or from the working directory, part by
part: empty and single-dot parts stay, a double dot goes back, and a symbolic
link leads to its place or nowhere.
-/

namespace AliasConsole

abbrev Environment := List (Text × Text)

/-- What a symbolic link holds: a path, or nothing that can be read. -/
inductive Link where
  | leads (target : Text)
  | forbidden
  | missing
deriving DecidableEq, Repr

/-- What the meaning of a path depends on besides the environment.  Places are the
parts of paths without detours, seen from the root. -/
structure FileSystem where
  /-- None if it has been removed. -/
  workingDirectory : Option Text
  /-- The home directory of the account that the program runs under. -/
  userHome : Option Text
  /-- The home directories of the accounts of the system. -/
  accounts : List (Text × Text)
  /-- The symbolic links and their places. -/
  links : List (List Text × Link)
  /-- How many links may be followed inside each other. -/
  nesting : Nat

namespace FilePath

/-- A text without slashes at its end. -/
def trimSlashes (t : Text) : Text := (t.reverse.dropWhile (· == '/')).reverse

/-- The home directory that a name stands for; the empty name is the user, whose
home directory the environment may change. -/
def home? (environment : Environment) (files : FileSystem) (name : Text) : Option Text :=
  if name.isEmpty then (environment.lookup "HOME".toList).or files.userHome
  else files.accounts.lookup name

/-- Replaces a tilde and a name in front by the home directory; an unknown one
stays. -/
def expandHome (environment : Environment) (files : FileSystem) (path : Text) : Text :=
  match path with
  | '~' :: rest =>
    match home? environment files (rest.takeWhile (· != '/')) with
    | none => path
    | some home =>
      let expanded := trimSlashes home ++ rest.dropWhile (· != '/')
      if expanded.isEmpty then ['/'] else expanded
  | _ => path

def isNameChar (c : Char) : Bool :=
  ('a' ≤ c && c ≤ 'z') || ('A' ≤ c && c ≤ 'Z') || ('0' ≤ c && c ≤ '9') || c == '_'

/-- A mention of a variable after its dollar sign: the name, and the number of
characters of the mention.  The name stands alone or in braces. -/
def mention? : Text → Option (Text × Nat)
  | [] => none
  | c :: rest =>
    if c.toNat = 0x7B then
      let name := rest.takeWhile (·.toNat != 0x7D)
      if name.length < rest.length then some (name, name.length + 2) else none
    else
      let name := (c :: rest).takeWhile isNameChar
      if name.isEmpty then none else some (name, name.length)

/-- The names of the variables that a text mentions. -/
def mentions : Text → List Text
  | [] => []
  | c :: rest =>
    (if c = '$' then ((mention? rest).map (·.1)).toList else []) ++ mentions rest

/-- Replaces the mentions of known variables; the first `skip` characters belong
to a mention that has been dealt with.  A mention of an unknown variable stays,
and neither it nor a value is looked through again. -/
def expandVariablesFrom (environment : Environment) : Nat → Text → Text
  | _, [] => []
  | skip + 1, _ :: rest => expandVariablesFrom environment skip rest
  | 0, c :: rest =>
    match (if c = '$' then mention? rest else none) with
    | none => c :: expandVariablesFrom environment 0 rest
    | some (name, length) =>
      (environment.lookup name).getD (c :: rest.take length) ++
        expandVariablesFrom environment length rest

def expandVariables (environment : Environment) (path : Text) : Text :=
  expandVariablesFrom environment 0 path

/-- The path with these parts. -/
def ofParts (parts : List Text) : Text := '/' :: Text.joined ['/'] parts

def nulByte : Fault := .saying .invalidValue "embedded null byte".toList

/-- The working directory is gone. -/
def adrift : Fault := .saying .missingFile "[Errno 2] No such file or directory".toList

/-- A link that cannot be read. -/
def forbidden (place : List Text) : Fault :=
  .saying .forbidden ("[Errno 13] Permission denied: ".toList ++ Text.quoted (ofParts place))

/-- A link that was there and holds nothing. -/
def missing (place : List Text) : Fault :=
  .saying .missingFile
    ("[Errno 2] No such file or directory: ".toList ++ Text.quoted (ofParts place))

/-- A path on which links lead back to themselves. -/
def looping (place : List Text) : Fault :=
  .saying .failure
    ("Symlink loop from PosixPath(".toList ++ Text.quoted (ofParts place) ++ [')'])

/-- Where following a path ends: at a place, or at a link that is being followed
already, with the parts that come after it. -/
inductive Course where
  | through (place : List Text)
  | caught (left : List Text)

def isIdle (part : Text) : Bool := part.isEmpty || part = ['.']

/-- The parts after a place put behind it; parts that start at the root stay alone. -/
def putBehind (place : List Text) : List Text → List Text
  | [] :: part :: rest => part :: rest
  | rest => place ++ rest

/-- The links at other places. -/
def elsewhere (place : List Text) (links : List (List Text × Link)) : List (List Text × Link) :=
  links.filter fun entry => entry.1 != place

theorem length_elsewhere_lt {links : List (List Text × Link)} {place : List Text} {link : Link}
    (h : links.lookup place = some link) : (elsewhere place links).length < links.length := by
  obtain ⟨before, after, rfl, -⟩ := List.lookup_eq_some_iff.mp h
  refine List.length_filter_lt_length_iff_exists.mpr ⟨(place, link), ?_, ?_⟩
  · exact List.mem_append_right before List.mem_cons_self
  · simp

/-- Follows parts from a place.  A link is replaced by the path that it holds; while
that is followed it is one of the links `under` way and no longer among the others. -/
def walk (nesting : Nat) (links : List (List Text × Link)) (under : List (List Text))
    (place : List Text) : List Text → Except Fault Course
  | [] => .ok (.through place)
  | part :: rest =>
    if isIdle part then walk nesting links under place rest
    else if part = ['.', '.'] then walk nesting links under place.dropLast rest
    else if part.contains (Char.ofNat 0) then .error nulByte
    else if under.contains (place ++ [part]) then
      .ok (.caught (putBehind (place ++ [part]) rest))
    else match _ : links.lookup (place ++ [part]) with
      | none => walk nesting links under (place ++ [part]) rest
      | some .forbidden => .error (forbidden (place ++ [part]))
      | some .missing => .error (missing (place ++ [part]))
      | some (.leads target) =>
        if under.length < nesting then do
          match ← walk nesting (elsewhere (place ++ [part]) links) ((place ++ [part]) :: under)
            (if target.head? = some '/' then [] else place) (Text.pieces '/' target) with
          | .through reached => walk nesting links under reached rest
          | .caught left => .ok (.caught (putBehind left rest))
        else .error .tooDeep
termination_by parts => (links.length, parts.length)
decreasing_by
  · decreasing_tactic
  · decreasing_tactic
  · decreasing_tactic
  · exact .left _ _ (length_elsewhere_lt ‹_›)
  · decreasing_tactic

/-- The place that one more part names as it is written. -/
def onward (place : List Text) (part : Text) : List Text :=
  if isIdle part then place else if part = ['.', '.'] then place.dropLast else place ++ [part]

def named (parts : List Text) : List Text := parts.foldl onward []

/-- A path that was caught in a link stays as it is written, unless looking at it is
caught again. -/
def settle (files : FileSystem) : Course → Except Fault Text
  | .through place => .ok (ofParts place)
  | .caught left =>
    let place := named left
    if place.any (·.contains (Char.ofNat 0)) then .error nulByte
    else match walk files.nesting files.links [] [] place with
      | .ok (.caught _) => .error (looping place)
      | _ => .ok (ofParts place)

/-- The absolute path of a path, with no links on the way. -/
def absolute (files : FileSystem) (path : Text) : Except Fault Text :=
  let parts := (Text.pieces '/' path).filter fun part => !isIdle part
  if path.head? = some '/' then walk files.nesting files.links [] [] parts >>= settle files
  else match files.workingDirectory with
    | some directory =>
      walk files.nesting files.links [] (named (Text.pieces '/' directory)) parts >>= settle files
    | none => walk files.nesting [] [] [] parts >>= fun _ => .error adrift

/-- The file that a path stands for. -/
def resolve (environment : Environment) (files : FileSystem) (path : Text) :
    Except Fault Text :=
  absolute files (expandVariables environment (expandHome environment files path))

end FilePath

end AliasConsole
