import AliasConsole.Value

/-!
# Scanning TOML

The pieces that all rules of the notation share: blanks, comments, bare words
and runs of digits.  A scan answers what it read and the rest of the text.
-/

namespace AliasConsole.Toml

/-- Why a document is refused. -/
inductive Refusal where
  | malformed
  | integerTooLong (digits : Nat)
  | tooDeep
deriving DecidableEq, Repr

/-- The room for values inside each other: what is left of it, and what an array and
an inline table take. -/
structure Room where
  left : Nat
  array : Nat
  inlineTable : Nat
deriving DecidableEq, Repr

def Room.without (room : Room) (taken : Nat) : Room := { room with left := room.left - taken }

def isSpace (c : Char) : Bool := c == ' ' || c == '\t'

/-- The blanks inside an array. -/
def isSpaceOrNewline (c : Char) : Bool := isSpace c || c == '\n'

/-- The characters that stand nowhere inside a line. -/
def isControl (c : Char) : Bool := (c.toNat < 0x20 && c != '\t') || c.toNat == 0x7F

/-- The characters of a key without quotes. -/
def isBareKeyChar (c : Char) : Bool :=
  ('a' ≤ c && c ≤ 'z') || ('A' ≤ c && c ≤ 'Z') || ('0' ≤ c && c ≤ '9') || c == '-' || c == '_'

def isDigit (c : Char) : Bool := '0' ≤ c && c ≤ '9'

def isBinaryDigit (c : Char) : Bool := c == '0' || c == '1'

def isOctalDigit (c : Char) : Bool := '0' ≤ c && c ≤ '7'

def isHexDigit (c : Char) : Bool :=
  isDigit c || ('a' ≤ c && c ≤ 'f') || ('A' ≤ c && c ≤ 'F')

/-- The value of a digit of any of these kinds. -/
def digitOf (c : Char) : Nat :=
  if isDigit c then c.toNat - 48 else if 'a' ≤ c then c.toNat - 87 else c.toNat - 55

def ofBase (base : Nat) (digits : Text) : Nat :=
  digits.foldl (fun n c => base * n + digitOf c) 0

def skipSpaces (t : Text) : Text := t.dropWhile isSpace

def skipComment : Text → Except Refusal Text
  | '#' :: rest =>
    if (rest.takeWhile (· != '\n')).any isControl then .error .malformed
    else .ok (rest.dropWhile (· != '\n'))
  | t => .ok t

/-- Skips blanks, line ends and comments; at most `fuel` comments. -/
def skipBetween : Nat → Text → Except Refusal Text
  | 0, t => .ok (t.dropWhile isSpaceOrNewline)
  | fuel + 1, t =>
    match t.dropWhile isSpaceOrNewline with
    | '#' :: rest =>
      match skipComment ('#' :: rest) with
      | .ok after => skipBetween fuel after
      | .error refusal => .error refusal
    | after => .ok after

def skipToItem (t : Text) : Except Refusal Text := skipBetween t.length t

def after? : Text → Text → Option Text
  | [], t => some t
  | c :: expected, d :: rest => if c = d then after? expected rest else none
  | _ :: _, [] => none

def startsWith (ok : Char → Bool) : Text → Bool
  | [] => false
  | c :: _ => ok c

/-- Digits that may be separated by single underscores, without the
underscores, and the rest of the text. -/
def digitsFrom (ok : Char → Bool) : Text → Text × Text
  | [] => ([], [])
  | c :: rest =>
    if ok c then
      let run := digitsFrom ok rest
      (c :: run.1, run.2)
    else if c = '_' && startsWith ok rest then digitsFrom ok rest
    else ([], c :: rest)

/-- Digits at the start of a text; none if it starts otherwise. -/
def digits? (ok : Char → Bool) (t : Text) : Option (Text × Text) :=
  if startsWith ok t then some (digitsFrom ok t) else none

/-- Exactly `count` decimal digits as a number. -/
def fixedDigits? : Nat → Text → Option (Nat × Text)
  | count, t =>
    let digits := t.take count
    if digits.length = count && digits.all isDigit then some (ofBase 10 digits, t.drop count)
    else none

end AliasConsole.Toml
