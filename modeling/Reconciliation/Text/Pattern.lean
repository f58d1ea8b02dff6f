/-
# Patterns of a text

Regular expressions as far as they are needed: single characters and runs of a class,
an optional part, one part after the other, and the two anchors.  A search tries every
way to read the pattern, from every place of the text.
-/

namespace Reconciliation

/-- A pattern of a text. -/
inductive Pattern where
  /-- The start of the text. -/
  | start
  /-- The end of the text, with not even a line break after it. -/
  | finish
  /-- One character of a class. -/
  | oneOf (accepts : Char → Bool)
  /-- Any number of characters of a class, none included. -/
  | many (accepts : Char → Bool)
  | optional (pattern : Pattern)
  | followedBy (first second : Pattern)

/-- A place in a text: whether it is the start, and what is left to read. -/
structure Place where
  atStart : Bool
  rest : List Char

namespace Pattern

/-- At least one character of a class. -/
def run (accepts : Char → Bool) : Pattern := followedBy (oneOf accepts) (many accepts)

/-- The places after the runs of a class that start at a place, the empty run first. -/
def runEnds (accepts : Char → Bool) (atStart : Bool) : List Char → List Place
  | [] => [⟨atStart, []⟩]
  | c :: rest =>
    ⟨atStart, c :: rest⟩ :: if accepts c then runEnds accepts false rest else []

/-- The places at which a pattern can end that starts at a place. -/
def ends : Pattern → Place → List Place
  | start, place => if place.atStart then [place] else []
  | finish, place => if place.rest.isEmpty then [place] else []
  | oneOf accepts, place =>
    match place.rest with
    | [] => []
    | c :: rest => if accepts c then [⟨false, rest⟩] else []
  | many accepts, place => runEnds accepts place.atStart place.rest
  | optional pattern, place => place :: pattern.ends place
  | followedBy first second, place => (first.ends place).flatMap second.ends

/-- Whether the pattern is found at a place or later. -/
def foundFrom (pattern : Pattern) (atStart : Bool) : List Char → Bool
  | [] => !(pattern.ends ⟨atStart, []⟩).isEmpty
  | c :: rest => !(pattern.ends ⟨atStart, c :: rest⟩).isEmpty || pattern.foundFrom false rest

/-- Whether the pattern is found somewhere in a text. -/
def foundIn (pattern : Pattern) (text : String) : Bool := pattern.foundFrom true text.toList

end Pattern
end Reconciliation
