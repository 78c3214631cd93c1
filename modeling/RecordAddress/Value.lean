import RecordAddress.Decimal
import RecordAddress.Pointer
import RecordAddress.Schema.Description

/-! The values that records are made of, and the shapes that addressing a record asks of them. -/

namespace RecordAddress

inductive Value where
  | null
  | bool (value : Bool)
  | int (value : Int)
  | decimal (value : Decimal)
  | text (value : String)
  | list (items : List Value)
  | dict (entries : List (String × Value))
  /-- A sequence that cannot be changed. -/
  | tuple (items : List Value)
  | set (items : List Value)
  | bytes (octets : List UInt8)
  /-- A mapping that cannot be changed. -/
  | view (entries : List (String × Value))
  /-- An object whose properties are attributes. -/
  | object (attributes : List (String × Value))
  /-- The mark of an array or map element that is not there. -/
  | missing
  /-- A pointer that knows no schema. Its tokens can be changed, and it takes further attributes. -/
  | location (tokens : Value) (attributes : List (String × Value))
  /-- A pointer into records of a schema, which cannot be changed. -/
  | pointer (pointer : Pointer)
  /-- What a pointer shows of its schema, with the attributes that were set on it. -/
  | description (described : Description) (attributes : List (String × Value))
  deriving Inhabited

namespace Value

def isIterable : Value → Bool
  | list _ | dict _ | tuple _ | set _ | view _ => true
  | _ => false

/-- Sequences whose items can be told by their index. Text is none of them. -/
def items? : Value → Option (List Value)
  | list items | tuple items => some items
  | _ => none

def isArray (value : Value) : Bool :=
  value.items?.isSome

def isChangeableArray : Value → Bool
  | list _ => true
  | _ => false

def entries? : Value → Option (Entries Value)
  | dict entries | view entries => some entries
  | _ => none

def isMapping (value : Value) : Bool :=
  value.entries?.isSome

def isChangeableMapping : Value → Bool
  | dict _ => true
  | _ => false

/-- Whether the value can have properties: it is a mapping, or no data but an object. -/
def isObject : Value → Bool
  | dict _ | view _ | object _ | missing | location .. | pointer _ | description .. => true
  | _ => false

/-- Mappings that cannot be changed do not take attributes either. -/
def isChangeableObject (value : Value) : Bool :=
  value.isChangeableMapping || (value.isObject && !value.isMapping)

def isUnset : Value → Bool
  | null => true
  | _ => false

def isMissing : Value → Bool
  | missing => true
  | _ => false

/-- Zero, emptiness and absence are the untrue values. -/
def isTruthy : Value → Bool
  | null | missing => false
  | bool value => value
  | int value => value ≠ 0
  | decimal value => !value.isZero
  | text value => value ≠ ""
  | list items | tuple items | set items => !items.isEmpty
  | bytes octets => !octets.isEmpty
  | dict entries | view entries => !entries.isEmpty
  | object _ | location .. | pointer _ | description .. => true

private def before : Value → Value → Bool
  | int first, int second => first < second
  | text first, text second => first < second
  | int _, text _ => true
  | _, _ => false

private def insertMember (value : Value) : List Value → List Value
  | [] => [value]
  | first :: rest =>
    if before value first then value :: first :: rest
    else if before first value then first :: insertMember value rest
    else first :: rest

/-- A set of numbers or texts, kept in order and without repetition. -/
def setOf (items : List Value) : Value :=
  set (items.foldl (fun members item => insertMember item members) [])

private theorem mem_insertMember {value member : Value} {members : List Value}
    (within : member ∈ insertMember value members) : member = value ∨ member ∈ members := by
  induction members with
  | nil => exact .inl (List.mem_singleton.mp within)
  | cons first rest ih =>
    simp only [insertMember] at within
    split at within
    · exact List.mem_cons.mp within
    · split at within
      · rcases List.mem_cons.mp within with rfl | later
        · exact .inr List.mem_cons_self
        · exact (ih later).imp id (List.mem_cons_of_mem _)
      · exact .inr within

/-- Nothing comes into a set but the items that it is made of. -/
theorem setOf_members (items : List Value) :
    ∃ members, setOf items = set members ∧ ∀ member ∈ members, member ∈ items := by
  suffices all : ∀ members : List Value, ∀ member ∈ items.foldl (fun members item => insertMember item members) members,
      member ∈ members ∨ member ∈ items from
    ⟨_, rfl, fun member within => (all [] member within).resolve_left List.not_mem_nil⟩
  induction items with
  | nil => exact fun members member within => .inl within
  | cons item rest ih =>
    intro members member within
    rcases ih (insertMember item members) member within with inserted | later
    · rcases mem_insertMember inserted with rfl | before
      · exact .inr List.mem_cons_self
      · exact .inl before
    · exact .inr (List.mem_cons_of_mem _ later)

def ofLocation (given : Location) : Value :=
  location (list (given.tokens.map text)) []

def text? : Value → Option String
  | text value => some value
  | _ => none

/-- The location whose tokens are the texts of a sequence, or the keys of a mapping. -/
def toLocation : Value → Location
  | list items | tuple items | set items => ⟨items.filterMap text?⟩
  | dict entries | view entries => ⟨Entries.keys entries⟩
  | text value => ⟨value.toList.map Char.toString⟩
  | _ => ⟨[]⟩

mutual
/-- Whether the value can be the key of a dictionary: nothing in it can be changed. -/
def isHashable : Value → Bool
  | list _ | dict _ | set _ | view _ => false
  | tuple items => areHashable items
  | _ => true

def areHashable : List Value → Bool
  | [] => true
  | item :: rest => item.isHashable && areHashable rest
end

inductive Breakdown where
  | noSuchItem
  | noSequence
  | noMapping
  | noObject
  /-- The value, or its attributes, cannot be changed. -/
  | notChangeable
  /-- Something else than text stands where a name is looked for. -/
  | noName
  /-- A value stands where an operation is looked for. -/
  | noOperation
  | noEntry (key : String)
  | field (fault : Field.Fault)
  /-- The container that an attribute stands for cannot be opened. -/
  | container (fault : Container.Fault)
  deriving DecidableEq, Repr

def givenAttribute (holder : Value) (key : String) : Except Breakdown Value :=
  match holder with
  | object attributes | location _ attributes => (Entries.find? key attributes).elim (.error .noObject) .ok
  | _ => .error .noObject

/-- How a breakdown keeps a container from being opened. -/
def Breakdown.containerFault : Breakdown → Container.Fault
  | container fault => fault
  | field fault => .field fault
  | noEntry key => .unregistered key
  | noObject | notChangeable => .notOffered
  | noSuchItem | noSequence | noMapping | noName | noOperation => .hidden

end Value
end RecordAddress
