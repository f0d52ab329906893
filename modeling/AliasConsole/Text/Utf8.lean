import AliasConsole.Fault

/-!
# UTF-8

Reads a text from bytes.  A fault names the bytes that cannot be read: a byte
that starts no character, a character that is broken off by a wrong byte, or
one that is cut off by the end.
-/

namespace AliasConsole.Utf8

def isContinuation (b : Nat) : Bool := 0x80 ≤ b && b < 0xC0

/-- The least and the greatest second byte after a first byte. -/
def secondRange (first : Nat) : Nat × Nat :=
  if first = 0xE0 then (0xA0, 0xBF)
  else if first = 0xED then (0x80, 0x9F)
  else if first = 0xF0 then (0x90, 0xBF)
  else if first = 0xF4 then (0x80, 0x8F)
  else (0x80, 0xBF)

/-- The number of bytes of a character, from its first byte. -/
def length? (first : Nat) : Option Nat :=
  if first < 0x80 then some 1
  else if first < 0xC2 then none
  else if first < 0xE0 then some 2
  else if first < 0xF0 then some 3
  else if first < 0xF5 then some 4
  else none

/-- The bytes of a character after its first are right as far as they go. -/
def rightBytes (first : Nat) : List Nat → Nat
  | [] => 0
  | second :: rest =>
    let range := secondRange first
    if range.1 ≤ second && second ≤ range.2 then 1 + (rest.takeWhile isContinuation).length
    else 0

/-- The words for bytes that cannot be read. -/
def unreadable (first position count : Nat) (reason : String) : Fault :=
  .saying .undecodable
    ("'utf-8' codec can't decode ".toList ++
      (if count = 1 then
        "byte 0x".toList ++ Text.hexDigits 2 first ++ " in position ".toList ++
          Text.ofNat position
       else
        "bytes in position ".toList ++ Text.ofNat position ++ '-' ::
          Text.ofNat (position + count - 1)) ++
      ": ".toList ++ reason.toList)

/-- The value of a first byte without the marks of its length. -/
def leadBits (length first : Nat) : Nat :=
  if length = 1 then first else if length = 2 then first % 0x20
  else if length = 3 then first % 0x10 else first % 8

/-- Reads the rest of a text at a position; the first `skip` bytes belong to a
character that has been read. -/
def decodeFrom (position : Nat) : Nat → List Nat → Except Fault Text
  | _, [] => .ok []
  | skip + 1, _ :: rest => decodeFrom (position + 1) skip rest
  | 0, first :: rest =>
    match length? first with
    | none => .error (unreadable first position 1 "invalid start byte")
    | some length =>
      let tail := rest.take (length - 1)
      let right := rightBytes first tail
      if right < tail.length then
        .error (unreadable first position (right + 1) "invalid continuation byte")
      else if tail.length < length - 1 then
        .error (unreadable first position (tail.length + 1) "unexpected end of data")
      else
        let code := tail.foldl (fun n b => n * 0x40 + b % 0x40) (leadBits length first)
        (decodeFrom (position + 1) (length - 1) rest).map (Char.ofNat code :: ·)

def decode (bytes : List Nat) : Except Fault Text := decodeFrom 0 0 bytes

end AliasConsole.Utf8
