import RecordAddress.Schema.Field
import RecordAddress.Value.Parts

/-! Single steps into a record. Properties are read from mappings by their name and from objects by
their mapped key; array elements are read by index and map entries by key. Records may hold pointers, and
what is read below one depends on more than the record. -/

namespace RecordAddress

/-- The shape that a value must have for a step below it. -/
inductive Shape where
  | object
  | array
  | map
  deriving DecidableEq, Repr

def Shape.phrase : Shape → String
  | object => "an object"
  | array => "an array"
  | map => "a map"

/-- How a record can fail to have what its schema says. -/
inductive Mismatch where
  | expected (shape : Shape)
  | unset
  | outOfBounds
  deriving DecidableEq, Repr

inductive Obstacle where
  | mismatch (mismatch : Mismatch)
  | broken (breakdown : Value.Breakdown)
  deriving DecidableEq, Repr

inductive Access where
  /-- Mappings hold properties under their names and objects under their mapped keys. -/
  | property (name mappedKey : Label) (collection : Option Collection)
  | position (index : Nat)
  | afterLast
  | entry (key : String)
  /-- An entry under a key that is no text, which no map has. -/
  | noEntry
  deriving DecidableEq, Repr

inductive Edit where
  /-- At an array index the value goes in front of the element. -/
  | add (value : Value)
  | replace (value : Value)
  | remove

def Edit.value? : Edit → Option Value
  | add value | replace value => some value
  | remove => none

namespace Access

def expect (holds : Bool) (shape : Shape) : Except Obstacle Unit :=
  if holds then .ok () else .error (.mismatch (.expected shape))

def attempt {α : Type} (operation : Except Value.Breakdown α) : Except Obstacle α :=
  operation.mapError .broken

/-- What stands for a collection that is not set. -/
def emptyOf : Collection → Value
  | .array => .list []
  | .map => .dict []

/-- The value of a property in a mapping, null if it is not set. -/
def readNamed (name : Label) (holder : Value) : Except Obstacle Value :=
  match name with
  | .text name => attempt (holder.entry name .null)
  | .other => .ok .null
  | .unusable => .error (.broken .noName)

/-- The value of a property of an object, null if it is not set. -/
def readMapped (context : Context) (mappedKey : Label) (holder : Value) : Except Obstacle Value :=
  match mappedKey with
  | .text key => attempt (holder.attributeAt context key)
  | .other | .unusable => .error (.broken .noName)

def readProperty (context : Context) (name mappedKey : Label) (holder : Value) : Except Obstacle Value := do
  expect holder.isObject .object
  if holder.isMapping then readNamed name holder else readMapped context mappedKey holder

/-- Elements that are not set, or not there, have nothing below them. -/
def needElement (depth : Nat) (value : Value) : Except Obstacle Value :=
  if depth ≠ 0 && (value.isUnset || value.isMissing) then .error (.mismatch .unset) else .ok value

/-- Properties that are not set have nothing below them either, but a collection right above the
last step may be unset: it is empty then. -/
def needProperty (collection : Option Collection) (depth : Nat) (value : Value) : Except Obstacle Value :=
  if depth ≠ 0 && value.isUnset then
    match collection with
    | some kind => if depth = 1 then .ok (emptyOf kind) else .error (.mismatch .unset)
    | none => .error (.mismatch .unset)
  else .ok value

/-- Takes a step, `depth` more being left after it. -/
def read (context : Context) (access : Access) (depth : Nat) (holder : Value) : Except Obstacle Value :=
  match access with
  | property name mappedKey collection => do
    needProperty collection depth (← readProperty context name mappedKey holder)
  | position index => do
    expect holder.isArray .array
    let length ← attempt holder.length
    let value ← if index < length then attempt (holder.item index) else .ok .missing
    needElement depth value
  | afterLast => .ok .missing
  | entry key => do
    expect holder.isMapping .map
    needElement depth (← attempt (holder.entry key .missing))
  | noEntry => do
    expect holder.isMapping .map
    needElement depth .missing

def writeNamed (name : Label) (value? : Option Value) (holder : Value) : Except Obstacle Value :=
  match name, value? with
  | .text name, some value => attempt (holder.setEntry name value)
  | .text name, none => attempt (holder.removeEntry name)
  | .other, none => .ok holder
  | .other, some _ | .unusable, _ => .error (.broken .noName)

def writeMapped (mappedKey : Label) (value? : Option Value) (holder : Value) : Except Obstacle Value :=
  match mappedKey with
  | .text key => attempt (holder.setAttribute key (value?.getD .null))
  | .other | .unusable => .error (.broken .noName)

/-- Sets a property, or unsets it. Mappings forget an unset property, objects keep it as null. -/
def writeProperty (name mappedKey : Label) (value? : Option Value) (holder : Value) : Except Obstacle Value := do
  expect holder.isChangeableObject .object
  if holder.isChangeableMapping then writeNamed name value? holder else writeMapped mappedKey value? holder

def writePosition (index : Nat) (edit : Edit) (holder : Value) : Except Obstacle Value := do
  expect holder.isChangeableArray .array
  if (← attempt holder.length) ≤ index then .error (.mismatch .outOfBounds)
  match edit with
  | .add value => attempt (holder.insertItem index value)
  | .replace value => attempt (holder.setItem index value)
  | .remove => attempt (holder.removeItem index)

/-- Only adding is possible after the last element. -/
def writeAfterLast (edit : Edit) (holder : Value) : Except Obstacle Value := do
  expect holder.isChangeableArray .array
  match edit with
  | .add value => attempt (holder.appendItem value)
  | .replace _ | .remove => .error (.mismatch .outOfBounds)

def writeEntry (key : Label) (value? : Option Value) (holder : Value) : Except Obstacle Value := do
  expect holder.isChangeableMapping .map
  writeNamed key value? holder

def write (access : Access) (edit : Edit) (holder : Value) : Except Obstacle Value :=
  match access with
  | property name mappedKey _ => writeProperty name mappedKey edit.value? holder
  | position index => writePosition index edit holder
  | afterLast => writeAfterLast edit holder
  | entry key => writeEntry (.text key) edit.value? holder
  | noEntry => writeEntry .other edit.value? holder

/-- The holder after a value that was read from it has changed inside. The holder is still the same
object, so this is no write, and a holder that cannot be changed may stand around one that can. -/
def absorb (access : Access) (value holder : Value) : Value :=
  match access, holder with
  | property (.text name) _ _, .dict entries => .dict (Entries.put name value entries)
  | property (.text name) _ _, .view entries => .view (Entries.put name value entries)
  | property _ (.text key) _, holder => holder.keepAttribute key value
  | position index, .list items => .list (items.set index value)
  | position index, .tuple items => .tuple (items.set index value)
  | entry key, .dict entries => .dict (Entries.put key value entries)
  | entry key, .view entries => .view (Entries.put key value entries)
  | _, holder => holder

def isUnsetIn (context : Context) (access : Access) (holder : Value) : Bool :=
  match access with
  | property name mappedKey _ =>
    match readProperty context name mappedKey holder with
    | .ok value => value.isUnset
    | .error _ => false
  | _ => false

end Access
end RecordAddress
