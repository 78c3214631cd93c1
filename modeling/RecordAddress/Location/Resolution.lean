import RecordAddress.ArrayIndex
import RecordAddress.Location.Composition
import RecordAddress.Value.Parts

/-! Locations and values: what a location can be divided by, and what it leads to in a document. -/

namespace RecordAddress.Location

inductive DivisionFault where
  | badText (fault : Token.Fault)
  /-- The divisor is neither text nor a number that can be written, and it has no tokens. -/
  | notDivisor
  /-- What the divisor has for its tokens has no elements, or not all of them can be written. -/
  | noTokens
  deriving DecidableEq, Repr

/-- The tokens of an object, which need not be texts. -/
def tokensOf (attributes : Entries Value) : Except DivisionFault (List String) := do
  let parts ← (Entries.find? Value.tokensKey attributes).elim (.error .notDivisor) .ok
  let elements ← parts.elements.mapError fun _ => .noTokens
  (elements.mapM Value.display?).elim (.error .noTokens) .ok

def divide (location : Location) : Value → Except DivisionFault Location
  | .text text => (location.composed [] (.text text)).mapError .badText
  | .int value => do
    let text ← (Value.numeral? value).elim (.error .notDivisor) .ok
    (location.composed [] (.text text)).mapError .badText
  | .bool value => (location.composed [] (.text (Value.boolWord value))).mapError .badText
  | .location tokens _ => (location.composed [tokens.toLocation.tokens] (.tokens 1)).mapError .badText
  | .object attributes => do
    let tokens ← tokensOf attributes
    (location.composed [tokens] (.tokens 1)).mapError .badText
  | _ => .error .notDivisor

/-- Positions are numbers. Nothing is found after the last element. -/
def elementAt? {α : Type} (elements : List α) (token : String) : Option α :=
  match ArrayIndex.position? token.toList with
  | .ok index => elements[index]?
  | .error _ => none

/-- One step into a document. Mappings have entries and sequences elements. Octets are numbers, and texts have
characters, if the walk goes into texts at all. -/
def step (intoTexts : Bool) (document : Value) (token : String) : Option Value :=
  match document with
  | .dict entries | .view entries => Entries.find? token entries
  | .list items | .tuple items => elementAt? items token
  | .text value => if intoTexts then (elementAt? value.toList token).map fun c => .text c.toString else none
  | .bytes octets => (elementAt? octets token).map fun octet => .int octet.toNat
  | _ => none

def walk (intoTexts : Bool) (location : Location) (document : Value) : Option Value :=
  location.tokens.foldlM (step intoTexts) document

/-- Texts are sequences, but the walk that is taken does not go into them. -/
def resolve (location : Location) (document : Value) : Option Value :=
  location.walk false document

end RecordAddress.Location
