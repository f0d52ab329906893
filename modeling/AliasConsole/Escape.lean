import AliasConsole.Text.Basic

/-!
# Terminal styles

A style is switched on by an escape sequence: the escape character, an opening
bracket, digits and semicolons, and one ASCII letter.  Styled text stands
between the sequence of its style and the sequence that resets all styles.
Stripping removes every such sequence, from left to right.
-/

namespace AliasConsole

inductive Style where
  | reset
  | red
  | green
  | yellow
  | magenta
  | cyan
  | dim
deriving DecidableEq, Repr

def escapeChar : Char := Char.ofNat 0x1B

namespace Style

def code : Style → Text
  | reset => ['0']
  | red => "31".toList
  | green => "32".toList
  | yellow => "33".toList
  | magenta => "35".toList
  | cyan => "36".toList
  | dim => "90".toList

def sequence (s : Style) : Text := escapeChar :: '[' :: s.code ++ ['m']

def ofName? (name : Text) : Option Style :=
  [("reset", reset), ("red", red), ("green", green), ("yellow", yellow), ("magenta", magenta),
    ("cyan", cyan), ("bright_black", dim)].lookup (String.ofList name)

end Style

/-- A terminal shows styles unless the environment switches them off by a
variable with any text in it.  A stream that cannot be asked whether it is a
terminal, because it has been closed, has no answer here. -/
def stylesEnabled (noColor : Option Text) (isTerminal : Bool) : Bool :=
  isTerminal && (noColor.getD []).isEmpty

/-- The text between the sequence of its style and the reset. -/
def Style.wrap (s : Style) (t : Text) : Text := s.sequence ++ t ++ reset.sequence

/-- The styled text where styles are shown, and the plain text elsewhere. -/
def styled (enabled : Bool) (s : Style) (t : Text) : Text := if enabled then s.wrap t else t

/-- The text in the style with a name; a name without a style changes nothing. -/
def styledAs (enabled : Bool) (name t : Text) : Text :=
  match Style.ofName? name with
  | some s => styled enabled s t
  | none => t

/-- The character may stand between the bracket and the letter. -/
def isParameterChar (c : Char) : Bool := ('0' ≤ c && c ≤ '9') || c == ';'

def isAsciiLetter (c : Char) : Bool := ('a' ≤ c && c ≤ 'z') || ('A' ≤ c && c ≤ 'Z')

/-- The number of characters up to and including the letter that ends the
parameters of a sequence. -/
def parametersLength? : Text → Option Nat
  | [] => none
  | c :: rest =>
    if isAsciiLetter c then some 1
    else if isParameterChar c then (parametersLength? rest).map (· + 1)
    else none

/-- The number of characters that belong to an escape sequence after its first. -/
def sequenceLength? : Text → Option Nat
  | '[' :: rest => (parametersLength? rest).map (· + 1)
  | _ => none

/-- Strips a text whose first `skip` characters belong to a sequence. -/
def stripFrom : Nat → Text → Text
  | _, [] => []
  | skip + 1, _ :: rest => stripFrom skip rest
  | 0, c :: rest =>
    if c = escapeChar then
      match sequenceLength? rest with
      | some n => stripFrom n rest
      | none => c :: stripFrom 0 rest
    else c :: stripFrom 0 rest

def stripEscapes (t : Text) : Text := stripFrom 0 t

def visibleWidth (t : Text) : Nat := (stripEscapes t).length

/-! ## Columns

Ragged rows of cells are aligned into columns.  A column is as wide as its
widest cell, escape sequences not counted; every row loses its blanks at the
end.
-/

namespace Columns

def widen : List Nat → List Text → List Nat
  | widths, [] => widths
  | [], cell :: rest => visibleWidth cell :: widen [] rest
  | width :: widths, cell :: rest => max width (visibleWidth cell) :: widen widths rest

def widths (rows : List (List Text)) : List Nat := rows.foldl widen []

def padded (width : Nat) (cell : Text) : Text := cell ++ Text.spaces (width - visibleWidth cell)

/-- A row before its blanks at the end are dropped. -/
def paddedRow (indent gap : Nat) (widths : List Nat) (row : List Text) : Text :=
  Text.spaces indent ++ Text.joined (Text.spaces gap) (List.zipWith padded widths row)

/-- The aligned rows, one line each. -/
def layout (indent gap : Nat) (rows : List (List Text)) : Text :=
  let columns := widths rows
  Text.joined ['\n'] (rows.map fun row => Text.trimEnd (paddedRow indent gap columns row))

end Columns

/-! ## Written pieces

What the program writes for its user is a list of pieces: prompts, which do not
end the line, and lines, which may have a style.  Whether styles are shown is
decided where the pieces are turned into text.
-/

/-- A piece of what the program writes. -/
inductive Written where
  | prompt (text : Text)
  | line (text : Text) (style : Option Style)
deriving DecidableEq, Repr

namespace Written

def render (inStyle : Bool) : Written → Text
  | prompt text => text
  | line text none => text ++ ['\n']
  | line text (some style) => styled inStyle style text ++ ['\n']

def renderAll (inStyle : Bool) (pieces : List Written) : Text :=
  pieces.flatMap (render inStyle)

end Written

end AliasConsole
