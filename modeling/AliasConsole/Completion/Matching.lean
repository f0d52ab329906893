import AliasConsole.Candidates
import AliasConsole.Text.Casing

/-!
# Matches

An alias group matches a query when some alias of it holds the query; the best
alias of the group stands for it.  A match whose alias starts with the query
belongs to the preferred bucket, any other to the second one.
-/

namespace AliasConsole

/-! ## Ranks

A candidate is ranked for a query by the place where the query first occurs in
it and by how much longer it is than the query, both in lower case.  Lower
ranks are better; a candidate without the query ranks behind all others.
-/

/-- Where the query occurs, if it does, and the signed difference of lengths. -/
structure Rank where
  position : Option Nat
  surplus : Int
deriving DecidableEq, Repr

def rank (query candidate : Text) : Rank :=
  let q := Text.lower query
  let c := Text.lower candidate
  ⟨Text.position? q c, (c.length : Int) - q.length⟩

/-! ## Matches -/

/-- Whether the query starts the alias or occurs later in it. -/
inductive Bucket where
  | startsWith
  | contains
deriving DecidableEq, Repr

def Bucket.name : Bucket → Text
  | .startsWith => "starts-with".toList
  | .contains => "contains".toList

/-- An alias group of a command that matches a query, by its best alias. -/
structure Match where
  command : Nat
  group : Nat
  aliases : AliasGroup
  /-- The alias that matches best. -/
  best : Text
  position : Nat
  surplus : Int
deriving DecidableEq, Repr

namespace Match

def better (a b : Match) : Bool :=
  a.position < b.position || (a.position == b.position && a.surplus < b.surplus)

def bucket (a : Match) : Bucket := if a.position = 0 then .startsWith else .contains

/-- The better of two matches, the earlier one if neither is. -/
def preferred (earlier later : Match) : Match := if later.better earlier then later else earlier

end Match

/-- The matches of the aliases that hold the query, in their order. -/
def aliasMatches (query : Text) (command group : Nat) (aliases : AliasGroup) : List Match :=
  aliases.filterMap fun spelling =>
    let r := rank query spelling
    r.position.map fun position => ⟨command, group, aliases, spelling, position, r.surplus⟩

/-- The match of a group by its best alias, of equally good ones the first. -/
def bestMatch? (query : Text) (command group : Nat) (aliases : AliasGroup) : Option Match :=
  match aliasMatches query command group aliases with
  | [] => none
  | first :: rest => some (rest.foldl Match.preferred first)

def groupMatches (query : Text) (command : Nat) (groups : List AliasGroup) : List Match :=
  groups.zipIdx.filterMap fun (aliases, group) => bestMatch? query command group aliases

end AliasConsole
