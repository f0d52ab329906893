import AliasConsole.Toml.Scanner

/-!
# Quoted texts in TOML

Single quotes enclose a text as it is; double quotes enclose a text with
escapes.  Three quotes enclose a text of several lines, whose first line end
is dropped, and up to two quotes may stand directly before the closing ones.
-/

namespace AliasConsole.Toml

/-- A character inside quotes is refused. -/
def isForbidden (multiline : Bool) (c : Char) : Bool :=
  isControl c && !(multiline && c == '\n')

def literalLine (t : Text) : Except Refusal (Text × Text) :=
  let body := t.takeWhile (· != '\'')
  match t.dropWhile (· != '\'') with
  | [] => .error .malformed
  | _ :: rest => if body.any (isForbidden false) then .error .malformed else .ok (body, rest)

def literalLines : Text → Except Refusal (Text × Text)
  | [] => .error .malformed
  | c :: rest =>
    match after? "'''".toList (c :: rest) with
    | some after => .ok ([], after)
    | none =>
      if isForbidden true c then .error .malformed
      else match literalLines rest with
        | .ok (body, after) => .ok (c :: body, after)
        | .error refusal => .error refusal

/-- A code point that is a character. -/
def isScalar (n : Nat) : Bool := n < 0xD800 || (0xE000 ≤ n && n < 0x110000)

/-- The character of an escape with `count` hexadecimal digits. -/
def hexEscape (count : Nat) (t : Text) : Except Refusal (Text × Text) :=
  let digits := t.take count
  let code := ofBase 16 digits
  if digits.length = count && digits.all isHexDigit && isScalar code then
    .ok ([Char.ofNat code], t.drop count)
  else .error .malformed

/-- What a backslash and a letter stand for. -/
def simpleEscape? (c : Char) : Option Char :=
  if c = 'b' then some (Char.ofNat 8)
  else if c = 't' then some '\t'
  else if c = 'n' then some '\n'
  else if c = 'f' then some (Char.ofNat 12)
  else if c = 'r' then some '\r'
  else if c = '"' then some '"'
  else if c = '\\' then some '\\'
  else none

/-- A line end behind a backslash is dropped with all blanks after it; only
blanks may stand between. -/
def lineEscape (t : Text) : Except Refusal (Text × Text) :=
  match skipSpaces t with
  | [] => .ok ([], [])
  | '\n' :: rest => .ok ([], rest.dropWhile isSpaceOrNewline)
  | _ => .error .malformed

/-- An escape after its backslash. -/
def escape (multiline : Bool) : Text → Except Refusal (Text × Text)
  | [] => .error .malformed
  | c :: rest =>
    if multiline && isSpaceOrNewline c then lineEscape (c :: rest)
    else if c = 'u' then hexEscape 4 rest
    else if c = 'U' then hexEscape 8 rest
    else match simpleEscape? c with
      | some d => .ok ([d], rest)
      | none => .error .malformed

/-- A text with escapes up to its closing quotes. -/
def basic (multiline : Bool) : Nat → Text → Except Refusal (Text × Text)
  | 0, _ => .error .malformed
  | _, [] => .error .malformed
  | fuel + 1, c :: rest =>
    if c = '"' && !multiline then .ok ([], rest)
    else match (if multiline then after? "\"\"\"".toList (c :: rest) else none) with
      | some after => .ok ([], after)
      | none =>
        if c = '\\' then do
          let (piece, after) ← escape multiline rest
          let (body, after) ← basic multiline fuel after
          return (piece ++ body, after)
        else if isForbidden multiline c then .error .malformed
        else do
          let (body, after) ← basic multiline fuel rest
          return (c :: body, after)

def basicLine (t : Text) : Except Refusal (Text × Text) := basic false (t.length + 1) t

/-- Drops a line end in front. -/
def dropFirstLineEnd : Text → Text
  | '\n' :: rest => rest
  | t => t

/-- Up to two more quotes after the three closing ones belong to the text. -/
def withExtraQuotes (quote : Char) (body rest : Text) : Text × Text :=
  let extra := (rest.take 2).takeWhile (· == quote)
  (body ++ extra, rest.drop extra.length)

def quotedText? (t : Text) : Option (Except Refusal (Text × Text)) :=
  match t with
  | '"' :: '"' :: '"' :: rest =>
    let rest := dropFirstLineEnd rest
    some do
      let (body, after) ← basic true (rest.length + 1) rest
      return withExtraQuotes '"' body after
  | '"' :: rest => some (basicLine rest)
  | '\'' :: '\'' :: '\'' :: rest =>
    some do
      let (body, after) ← literalLines (dropFirstLineEnd rest)
      return withExtraQuotes '\'' body after
  | '\'' :: rest => some (literalLine rest)
  | _ => none

/-- One part of a key: bare, or quoted on one line. -/
def keyPart (t : Text) : Except Refusal (Text × Text) :=
  match t with
  | '"' :: rest => basicLine rest
  | '\'' :: rest => literalLine rest
  | _ =>
    if startsWith isBareKeyChar t then
      .ok (t.takeWhile isBareKeyChar, t.dropWhile isBareKeyChar)
    else .error .malformed

/-- The further parts of a key, each behind a point. -/
def keyRest : Nat → Text → Except Refusal (List Text × Text)
  | 0, t => .ok ([], t)
  | fuel + 1, t =>
    match skipSpaces t with
    | '.' :: rest => do
      let (part, after) ← keyPart (skipSpaces rest)
      let (more, after) ← keyRest fuel after
      return (part :: more, after)
    | after => .ok ([], after)

/-- A key with its parts, and the text after the blanks behind it. -/
def key (t : Text) : Except Refusal (List Text × Text) := do
  let (part, after) ← keyPart t
  let (more, after) ← keyRest (t.length + 1) after
  return (part :: more, after)

end AliasConsole.Toml
