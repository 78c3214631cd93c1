import RecordAddress.Session

/-! Values as they are given from outside, with texts in the place of pointers. The texts are parsed
from the left, so that of several bad ones the first is found. -/

namespace RecordAddress.Session

/-- A value with nothing inside. -/
inductive Datum where
  | null
  | bool (value : Bool)
  | int (value : Int)
  | decimal (value : Decimal)
  | text (value : String)
  | bytes (octets : List UInt8)
  | missing
  deriving Inhabited

def Datum.value : Datum → Value
  | null => .null
  | bool value => .bool value
  | int value => .int value
  | decimal value => .decimal value
  | text value => .text value
  | bytes octets => .bytes octets
  | missing => .missing

/-- What a value is as a datum. One that other values are in is none, and stands as null. -/
def Datum.ofValue : Value → Datum
  | .bool value => .bool value
  | .int value => .int value
  | .decimal value => .decimal value
  | .text value => .text value
  | .bytes octets => .bytes octets
  | .missing => .missing
  | _ => .null

instance : Coe Value Datum := ⟨Datum.ofValue⟩

inductive Given where
  | plain (datum : Datum)
  | list (items : List Given)
  | tuple (items : List Given)
  | set (items : List Given)
  | dict (entries : List (String × Given))
  | view (entries : List (String × Given))
  | object (attributes : List (String × Given))
  | location (path : String)
  /-- The text of a pointer. -/
  | pointer (path : String)
  deriving Inhabited

mutual
/-- The value, with its pointers made from their texts. -/
def Given.value (pointerOf : String → Action Pointer) : Given → Action Value
  | .plain datum => return datum.value
  | .list items => return .list (← givenItems pointerOf items)
  | .tuple items => return .tuple (← givenItems pointerOf items)
  | .set items => return .setOf (← givenItems pointerOf items)
  | .dict entries => return .dict (Entries.ofList (← givenEntries pointerOf entries))
  | .view entries => return .view (Entries.ofList (← givenEntries pointerOf entries))
  | .object attributes => return .object (Entries.ofList (← givenEntries pointerOf attributes))
  | .location path => return .ofLocation (← raise .location (Location.parse path))
  | .pointer path => return .pointer (← pointerOf path)

def givenItems (pointerOf : String → Action Pointer) : List Given → Action (List Value)
  | [] => return []
  | item :: rest => do
    let item ← item.value pointerOf
    let rest ← givenItems pointerOf rest
    return item :: rest

def givenEntries (pointerOf : String → Action Pointer) :
    List (String × Given) → Action (List (String × Value))
  | [] => return []
  | (key, value) :: rest => do
    let value ← value.value pointerOf
    let rest ← givenEntries pointerOf rest
    return (key, value) :: rest
end

/-- A value that pointers into the records of the root class may be in. -/
def Given.accept (given : Given) : Action Value :=
  given.value parseAtRoot

/-- A value that is no part of a record, so that no pointers may be in it. -/
def Given.acceptBare (given : Given) : Action Value :=
  given.value fun _ => throw .notOffered

end RecordAddress.Session
