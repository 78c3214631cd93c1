import RecordAddress.Value.Display
import RecordAddress.Value.Elements

/-! What was changed of the objects that describe record types. Changes lie over what an object had
before and are seen wherever the object is met. All of them are kept in their order, because what was
copied from an object at one time does not change with it later. -/

namespace RecordAddress

structure Amendments where
  /-- The objects that were changed, each with all attributes set on it, the latest change first. -/
  changes : List (Subject × Entries Value) := []

namespace Amendments

def isEmpty (amendments : Amendments) : Bool :=
  amendments.changes.isEmpty

/-- The time after all changes so far. -/
def time (amendments : Amendments) : Nat :=
  amendments.changes.length

/-- What had been changed at an earlier time. -/
def asOf (amendments : Amendments) (time : Nat) : Amendments :=
  ⟨amendments.changes.drop (amendments.time - time)⟩

def put (amendments : Amendments) (subject : Subject) (attributes : Entries Value) : Amendments :=
  ⟨(subject, attributes) :: amendments.changes⟩

/-- The attributes that were set on an object, if any ever was. -/
def on? (amendments : Amendments) (subject : Subject) : Option (Entries Value) :=
  Entries.find? subject amendments.changes

def on (amendments : Amendments) (subject : Subject) : Entries Value :=
  (amendments.on? subject).getD []

def set? (amendments : Amendments) (subject : Subject) (key : String) : Option Value :=
  Entries.find? key (amendments.on subject)

/-- An object as it is met in a record, with what was set on it. -/
def shown (amendments : Amendments) (described : Description) : Value :=
  .description described (described.subject?.elim [] amendments.on)

@[simp] theorem isEmpty_unchanged : ({} : Amendments).isEmpty = true := rfl

@[simp] theorem asOf_unchanged (time : Nat) : ({} : Amendments).asOf time = {} := by
  simp [asOf]

@[simp] theorem on_unchanged (subject : Subject) : ({} : Amendments).on subject = [] := rfl

@[simp] theorem set?_unchanged (subject : Subject) (key : String) : ({} : Amendments).set? subject key = none := rfl

theorem on?_put (amendments : Amendments) (subject other : Subject) (attributes : Entries Value) :
    (amendments.put subject attributes).on? other =
      if subject = other then some attributes else amendments.on? other := rfl

theorem asOf_time (amendments : Amendments) : amendments.asOf amendments.time = amendments := by
  simp [asOf]

/-- What had been changed once is not changed by later changes. -/
theorem asOf_put {amendments : Amendments} {time : Nat} (past : time ≤ amendments.time) (subject : Subject)
    (attributes : Entries Value) : (amendments.put subject attributes).asOf time = amendments.asOf time := by
  have later : amendments.changes.length + 1 - time = amendments.changes.length - time + 1 := by
    unfold Amendments.time at past
    omega
  simp [asOf, put, Amendments.time, later]

end Amendments
end RecordAddress
