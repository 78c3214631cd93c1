import RecordAddress.Event
import RecordAddress.Pointer
import RecordAddress.Record.Route

/-! Reading and editing records through pointers. What may not be done whatever the record holds is
misuse and found before the record is looked at; all else that fails is a fault of the data. -/

namespace RecordAddress

def ElementIndex.access : ElementIndex → Access
  | position index => .position index
  | afterLast => .afterLast
  | key name => .entry name

namespace Pointer

def accessOf (amendments : Amendments) (target : Property) : Access :=
  .property (amendments.name target).label (amendments.mappedKey target).label (amendments.collection? target)

/-- The step to an element. Where there is no array any more, its index is the key of an entry. -/
def elementAccess (isStray : Bool) (index : ElementIndex) : Access :=
  if isStray then
    match index with
    | .position _ => .noEntry
    | .afterLast => .entry "-"
    | .key key => .entry key
  else index.access

def route (amendments : Amendments) : Pointer → List Access
  | root _ => []
  | property parent _ target _ => parent.route amendments ++ [accessOf amendments target]
  | element parent _ index => parent.route amendments ++ [elementAccess (amendments.isStray parent) index]

inductive Misuse where
  | replaceRecord
  | deleteRecord
  | missingAsValue
  /-- An element of a collection of objects is no object. -/
  | nullAsObject
  | replaceDash
  | deleteDash
  deriving DecidableEq, Repr

def Misuse.message : Misuse → String
  | replaceRecord => "May not replace the whole record."
  | deleteRecord => "May not delete the whole record."
  | missingAsValue => "May not use MISSING as a value, remove the value instead."
  | nullAsObject => "May not use None as a value."
  | replaceDash => "May not replace dash index."
  | deleteDash => "May not delete dash index."

/-- A mismatch of the record and its schema, at one of the pointers of a chain. -/
structure DataFault where
  pointer : Pointer
  mismatch : Mismatch

def DataFault.message (fault : DataFault) : String :=
  match fault.mismatch with
  | .expected shape => "Expected " ++ shape.phrase ++ " at \"" ++ fault.pointer.parent.text ++ "\"."
  | .unset => "No property value at \"" ++ fault.pointer.text ++ "\"."
  | .outOfBounds => "Array index is out of bounds at \"" ++ fault.pointer.text ++ "\"."

inductive AccessFault where
  | misuse (misuse : Misuse)
  | data (fault : DataFault)
  | broken (breakdown : Value.Breakdown)

/-- A failure on the way into a record, told by the pointer of the chain where it happened. -/
def faultAt (pointer : Pointer) (failure : Route.Failure) : AccessFault :=
  match failure.obstacle with
  | .mismatch mismatch => .data ⟨pointer.ancestor failure.depth, mismatch⟩
  | .broken breakdown => .broken breakdown

def get (context : Context) (pointer : Pointer) (record : Value) : Except AccessFault Value :=
  (Route.read context (pointer.route context.amendments) record).mapError pointer.faultAt

/-- Every pointer of the chain that can be read, its value and how many pointers come after it. -/
def trace (context : Context) (pointer : Pointer) (record : Value) : List (Pointer × Value × Nat) :=
  let chain := pointer.chain
  (chain.zip (Route.trace context (pointer.route context.amendments) record)).mapIdx fun position (reached, value) =>
    (reached, value, chain.length - position - 1)

def misuse? (amendments : Amendments) (pointer : Pointer) : Edit → Option Misuse
  | .remove =>
    if pointer.isRoot then some .deleteRecord
    else if amendments.isDash pointer then some .deleteDash
    else none
  | .add value => ofValue value
  | .replace value =>
    ofValue value <|> if amendments.isDash pointer then some .replaceDash else none
where
  ofValue (value : Value) : Option Misuse :=
    if pointer.isRoot then some .replaceRecord
    else if value.isMissing then some .missingAsValue
    else if value.isUnset && pointer.isElement && pointer.property?.any amendments.holdsObjects then some .nullAsObject
    else none

/-- Edits a record. The answer is the record as it is afterwards, and the value that was at the
pointer before. -/
def edit (context : Context) (pointer : Pointer) (change : Edit) (record : Value) :
    Value × Except AccessFault Value :=
  match pointer.misuse? context.amendments change, pointer.route context.amendments with
  | some misuse, _ => (record, .error (.misuse misuse))
  | none, [] => (record, .ok record)
  | none, access :: rest =>
    let (record, outcome) := Route.edit context change access rest record
    (record, outcome.mapError pointer.faultAt)

/-- What an edit leaves of the objects that describe record types. -/
def amend (context : Context) (pointer : Pointer) (change : Edit) (record : Value) : Amendments :=
  if (pointer.misuse? context.amendments change).isSome then context.amendments
  else Route.amend context change (pointer.route context.amendments) record

def opened (context : Context) (pointer : Pointer) (record : Value) : List Container :=
  Route.opened context (pointer.route context.amendments) record

def edited (pointer : Pointer) : Edit → Event
  | .add _ => .added pointer.text
  | .replace _ => .replaced pointer.text
  | .remove => .removed pointer.text

end Pointer
end RecordAddress
