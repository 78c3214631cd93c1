import RecordAddress.Pointer.Access
import RecordAddress.Proofs.Reading
import RecordAddress.Proofs.RecordData

/-! Slots, the places inside mappings and sequences. Where all objects of a record are mappings, a pointer
leads through slots alone: properties and map entries are keys, whatever subtype told of them. -/

namespace RecordAddress
open Value

inductive Slot where
  | key (name : String)
  | index (position : Nat)
  /-- The position after the last element of an array. -/
  | dash
  deriving DecidableEq, Repr

namespace Value

/-- Objects that hold their properties under keys, and all that is no object. -/
def isPlain (value : Value) : Bool :=
  !value.isObject || value.isMapping

def child? : Slot → Value → Option Value
  | .key name, holder => holder.entries?.bind (Entries.find? name)
  | .index position, holder => holder.items?.bind (·[position]?)
  | .dash, _ => none

/-- The holder with something else in one of its slots, which need not be one that can be written. -/
def putChild (slot : Slot) (holder part : Value) : Value :=
  match slot, holder with
  | .key name, dict entries => dict (Entries.put name part entries)
  | .key name, view entries => view (Entries.put name part entries)
  | .index position, list items => list (items.set position part)
  | .index position, tuple items => tuple (items.set position part)
  | _, holder => holder

/-- What a record holds at the end of a way through slots. -/
def at? (record : Value) : List Slot → Option Value
  | [] => some record
  | slot :: rest => (record.child? slot).bind (·.at? rest)

theorem plain_child {holder value : Value} {slot : Slot} (plain : holder.throughout isPlain = true)
    (found : holder.child? slot = some value) : value.throughout isPlain = true := by
  cases slot with
  | key name =>
    obtain ⟨entries, shape, found⟩ := Option.bind_eq_some_iff.mp found
    exact throughout_of_find? (throughout_entry shape plain) found
  | index position =>
    obtain ⟨items, shape, found⟩ := Option.bind_eq_some_iff.mp found
    exact (allThroughout_iff items).mp (throughout_item shape plain) value (List.mem_of_getElem? found)
  | dash => cases found

theorem holder_of_child {slot : Slot} {holder value : Value} (found : holder.child? slot = some value) :
    holder.isPlain = true ∧ holder.isUnset = false ∧ holder.isMissing = false := by
  cases slot <;> cases holder <;> first | exact ⟨rfl, rfl, rfl⟩ | cases found

theorem child?_putChild {slot : Slot} {holder value : Value} (found : holder.child? slot = some value) (part : Value)
    (other : Slot) :
    (holder.putChild slot part).child? other = if slot = other then some part else holder.child? other := by
  cases slot with
  | key name =>
    cases holder with
    | dict | view => cases other <;> simp [putChild, child?, entries?, items?, Entries.find?_put]
    | _ => cases found
  | index position =>
    cases holder with
    | list items | tuple items =>
      have inside : position < items.length := (List.getElem?_eq_some_iff.mp found).1
      cases other <;> simp [putChild, child?, entries?, items?, List.getElem?_set, inside]
    | _ => cases found
  | dash => cases found

end Value

namespace Access

/-- The slot that a step leads to. There is none where a name is no text. -/
def slot? : Access → Option Slot
  | property (.text name) _ _ | entry name => some (.key name)
  | position index => some (.index index)
  | afterLast => some .dash
  | property .. | noEntry => none

def shape : Access → Shape
  | property .. => .object
  | position _ | afterLast => .array
  | entry _ | noEntry => .map

/-- Whether there can be a slot for the step. Nothing is asked of what has a position after its last element. -/
def fits : Access → Value → Bool
  | property .., holder | entry _, holder | noEntry, holder => holder.isMapping
  | position _, holder => holder.isArray
  | afterLast, _ => true

/-- What a step makes of what it finds in its slot, `depth` more being left after it. -/
def settle (depth : Nat) (found : Option Value) : Access → Except Obstacle Value
  | property _ _ collection => needProperty collection depth (found.getD .null)
  | position _ | entry _ => needElement depth (found.getD .missing)
  | afterLast => .ok .missing
  | noEntry => needElement depth .missing

variable {context : Context}

theorem fits_putChild (access : Access) (slot : Slot) (holder part : Value) :
    access.fits (holder.putChild slot part) = access.fits holder := by
  cases slot <;> cases holder <;> cases access <;> rfl

theorem absorb_slot {access : Access} {slot : Slot} {holder value : Value} (leads : access.slot? = some slot)
    (found : holder.child? slot = some value) (part : Value) : access.absorb part holder = holder.putChild slot part := by
  cases access with
  | property name mappedKey collection =>
    cases name <;> cases leads
    cases holder <;> first | rfl | cases found
  | position index =>
    cases leads
    cases holder <;> rfl
  | afterLast =>
    cases leads
    cases found
  | entry key =>
    cases leads
    cases holder <;> rfl
  | noEntry => cases leads

theorem read_slot {access : Access} {slot : Slot} (leads : access.slot? = some slot) {holder : Value}
    (plain : holder.isPlain = true) (depth : Nat) :
    access.read context depth holder =
      if access.fits holder then access.settle depth (holder.child? slot)
      else .error (.mismatch (.expected access.shape)) := by
  cases access with
  | property name mappedKey collection =>
    cases name <;> cases leads
    cases holder <;> first | rfl | cases plain
  | position index =>
    cases leads
    rw [read_position]
    cases holder <;> rfl
  | afterLast => rfl
  | entry key =>
    cases leads
    rw [read_entry]
    cases holder <;> rfl
  | noEntry => cases leads

end Access

namespace Pointer

/-- The location of a pointer in a record. -/
def slots : Pointer → List Slot
  | root _ => []
  | property parent _ target _ => parent.slots ++ [.key target.name]
  | element parent _ (.position index) => parent.slots ++ [.index index]
  | element parent _ .afterLast => parent.slots ++ [.dash]
  | element parent _ (.key name) => parent.slots ++ [.key name]

theorem slots_of_route (pointer : Pointer) :
    (pointer.route {}).map Access.slot? = pointer.slots.map some := by
  induction pointer with
  | root container => rfl
  | property parent token target children ih =>
    simp only [route, slots, List.map_append, ih]
    rfl
  | element parent token index ih =>
    simp only [route, elementAccess, Amendments.isStray_unchanged, List.map_append, ih]
    cases index <;> simp [slots, ElementIndex.access, Access.slot?]

end Pointer
end RecordAddress
