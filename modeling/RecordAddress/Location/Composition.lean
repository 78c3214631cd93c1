import RecordAddress.Location

/-! How locations are composed. Each location keeps its tokens in a list that can be changed and that others may refer
to. So a composition works on a copy, and what it gives is read from the text of all tokens of the copy. -/

namespace RecordAddress.Location

/-- The lists of tokens of all locations, each referred to by its place. -/
abbrev Lists := List (List String)

abbrev Composing := ExceptT Token.Fault (StateM Lists)

/-- What a location is divided by. -/
inductive Divisor where
  /-- The first token of the text, whose leading slash may be left out. -/
  | text (text : String)
  /-- All tokens of the list at the place. -/
  | tokens (place : Nat)

def slashed (text : String) : String :=
  if text.toList.head? = some '/' then text else "/" ++ text

namespace Composing

def listAt (place : Nat) : Composing (List String) := do
  return (← get).getD place []

/-- Keeps the tokens in a list of their own. -/
def keep (tokens : List String) : Composing Nat := do
  let lists ← get
  set (lists ++ [tokens])
  return lists.length

def change (place : Nat) (tokens : List String) : Composing Unit :=
  modify fun lists => lists.set place tokens

def extend (place : Nat) (tokens : List String) : Composing Unit := do
  change place ((← listAt place) ++ tokens)

/-- Takes the first token out of the list. -/
def takeFirst (place : Nat) : Composing (List String) := do
  let tokens ← listAt place
  change place (tokens.drop 1)
  return tokens.take 1

/-- Reads the text into a list of its own. -/
def read (text : String) : Composing Nat :=
  match Token.split text with
  | .ok tokens => keep tokens
  | .error fault => throw fault

/-- Gives the place of the composed list. -/
def compose (place : Nat) (divisor : Divisor) : Composing Nat := do
  let copy ← keep (← listAt place)
  match divisor with
  | .text text =>
    let given ← read (slashed text)
    extend copy (← takeFirst given)
  | .tokens other => extend copy (← listAt other)
  read (Token.join (← listAt copy))

end Composing

/-- The location that comes of a composition with nothing but the lists that are given. -/
def composed (location : Location) (others : Lists) (divisor : Divisor) : Except Token.Fault Location :=
  let (place, lists) := (Composing.compose 0 divisor).run (location.tokens :: others)
  place.map fun place => ⟨lists.getD place []⟩

end RecordAddress.Location
