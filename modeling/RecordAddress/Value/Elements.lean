import RecordAddress.Value

/-! What values consist of where they are taken as collections, and when two values are the same as
keys: then numbers are compared by what they come to, and texts only equal texts. -/

namespace RecordAddress

/-- How two things that are given as pairs fail to be pairs. -/
inductive Unpaired where
  | noCollection
  | otherSize
  deriving DecidableEq, Repr

namespace Value

/-- The items of a sequence or set, the keys of a mapping, or the characters of a text. -/
def elements : Value → Except Breakdown (List Value)
  | list items | tuple items | set items => .ok items
  | dict entries | view entries => .ok ((Entries.keys entries).map text)
  | text value => .ok (value.toList.map fun c => text c.toString)
  | bytes octets => .ok (octets.map fun octet => int octet.toNat)
  | _ => .error .noSequence

/-- Whether something can be looked up in the value without it being a sequence of other values. -/
def hasParts : Value → Bool
  | dict _ | view _ | text _ | bytes _ => true
  | _ => false

def fraction? : Value → Option (Int × Nat)
  | bool value => some (if value then 1 else 0, 1)
  | int value => some (value, 1)
  | decimal value => some (value.numerator, value.denominator)
  | _ => none

def isSameNumber (first second : Value) : Bool :=
  match first.fraction?, second.fraction? with
  | some (numerator, denominator), some (other, below) => numerator * below = other * denominator
  | _, _ => false

mutual
/-- Whether two values are the same key. -/
def isSame : Value → Value → Bool
  | null, null | missing, missing => true
  | text first, text second => first = second
  | bytes first, bytes second => first = second
  | tuple first, tuple second => areSame first second
  | location first _, location second _ => first.toLocation = second.toLocation
  | pointer first, pointer second => first.isSame second
  | object first, object second => haveSame first second
  | first, second => isSameNumber first second

def areSame : List Value → List Value → Bool
  | [], [] => true
  | first :: firsts, second :: seconds => first.isSame second && areSame firsts seconds
  | _, _ => false

def haveSame : List (String × Value) → List (String × Value) → Bool
  | [], [] => true
  | (key, first) :: firsts, (other, second) :: seconds =>
    key = other && first.isSame second && haveSame firsts seconds
  | _, _ => false
end

/-- Whether a text is in the value, which is then a collection of it or a longer text. -/
def includes (holder : Value) (key : String) : Except Breakdown Bool :=
  match holder with
  | dict entries | view entries => .ok (Entries.contains key entries)
  | list items | tuple items | set items => .ok (items.any (text key).isSame)
  | text whole => .ok ((List.range (whole.length + 1)).any fun start =>
      key.toList.isPrefixOf (whole.toList.drop start))
  | _ => .error .noSequence

def label : Value → Label
  | text name => .text name
  | value => if value.isHashable then .other else .unusable

/-- The entry of a mapping, which has to be there. -/
def neededEntry (holder : Value) (key : String) : Except Breakdown Value :=
  match holder with
  | dict entries | view entries => (Entries.find? key entries).elim (.error (.noEntry key)) .ok
  | _ => .error .noMapping

def pair (value : Value) : Except Unpaired (Value × Value) :=
  match value.elements with
  | .ok [first, second] => if first.isHashable then .ok (first, second) else .error .noCollection
  | .ok _ => .error .otherSize
  | .error _ => .error .noCollection

/-- The entries of a mapping, or of a list of pairs. -/
def pairs : Value → Except Unpaired (List (Value × Value))
  | dict entries | view entries => .ok (entries.map fun entry => (text entry.1, entry.2))
  | value =>
    match value.elements with
    | .ok items => items.mapM pair
    | .error _ => .error .noCollection

end Value
end RecordAddress
