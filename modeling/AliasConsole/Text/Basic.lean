/-!
# Texts

Lines, aliases, messages and names are finite sequences of characters, and
every length and position counts characters.  This module holds the blank
characters, the cutting of a text into words or lines, trimming, and the
search for one text inside another.
-/

namespace AliasConsole

/-- A text is a list of characters. -/
abbrev Text := List Char

/-- A code point lies in one of the closed ranges of a table. -/
def inRanges (table : List (Nat × Nat)) (n : Nat) : Bool :=
  table.any fun range => range.1 ≤ n && n ≤ range.2

/-- The closed code point ranges of the blank characters. -/
def blankRanges : List (Nat × Nat) :=
  [(0x09, 0x0D), (0x1C, 0x20), (0x85, 0x85), (0xA0, 0xA0), (0x1680, 0x1680),
   (0x2000, 0x200A), (0x2028, 0x2029), (0x202F, 0x202F), (0x205F, 0x205F),
   (0x3000, 0x3000)]

/-- A blank separates words and is dropped by trimming. -/
def isBlank (c : Char) : Bool := inRanges blankRanges c.toNat

namespace Text

/-- The maximal blank-free pieces of a text, from left to right. -/
def words : Text → List Text
  | [] => []
  | c :: rest =>
    if isBlank c then words rest
    else match rest with
      | [] => [[c]]
      | d :: _ =>
        if isBlank d then [c] :: words rest
        else match words rest with
          | [] => [[c]]
          | word :: more => (c :: word) :: more

def trimStart (t : Text) : Text := t.dropWhile isBlank

def trimEnd (t : Text) : Text := (t.reverse.dropWhile isBlank).reverse

def trim (t : Text) : Text := trimEnd (trimStart t)

def endsInBlank (t : Text) : Bool := t.getLast?.any isBlank

/-- The pieces between the occurrences of a separator; always at least one. -/
def pieces (separator : Char) : Text → List Text
  | [] => [[]]
  | c :: rest =>
    if c = separator then [] :: pieces separator rest
    else match pieces separator rest with
      | [] => [[c]]
      | piece :: more => (c :: piece) :: more

/-- Puts a separator between the texts of a list. -/
def joined (separator : Text) : List Text → Text
  | [] => []
  | [t] => t
  | t :: u :: more => t ++ separator ++ joined separator (u :: more)

/-- The first position at which a query occurs in a text. -/
def position? (query : Text) : Text → Option Nat
  | [] => if query.isEmpty then some 0 else none
  | c :: rest =>
    if query.isPrefixOf (c :: rest) then some 0
    else (position? query rest).map (· + 1)

def spaces (count : Nat) : Text := List.replicate count ' '

/-- The order of texts by code point, a shorter text before its extensions. -/
def before : Text → Text → Bool
  | _, [] => false
  | [], _ :: _ => true
  | c :: rest, d :: more => c.toNat < d.toNat || (c.toNat == d.toNat && before rest more)

def ofNat (n : Nat) : Text := Nat.toDigits 10 n

/-- The decimal digits of an integer after a minus sign if it is negative. -/
def ofInt (n : Int) : Text :=
  if n < 0 then '-' :: ofNat n.natAbs else ofNat n.natAbs

/-- At least `width` digits, filled up with zeros in front. -/
def ofNatPadded (width n : Nat) : Text :=
  let digits := ofNat n
  List.replicate (width - digits.length) '0' ++ digits

end Text

/-! ## Command lines

A line is cut into tokens at runs of blanks; there is no quoting.  The current
token is the one under a cursor at the end of the line, and is empty when the
line is empty or ends in a blank.
-/

def tokenize (line : Text) : List Text := Text.words line

/-- A new, still empty token has been started. -/
def endsWithSpace (line : Text) : Bool := Text.endsInBlank line

/-- The token under a cursor at the end of the line. -/
def currentToken (line : Text) : Text :=
  if line.isEmpty || endsWithSpace line then [] else (tokenize line).getLastD []

end AliasConsole
