import RecordAddress.Value.Display
import RecordAddress.Value.Elements

/-! Registries hold classes under their record types, in the order in which the record types were
first registered. Record types are texts unless something else was put in their place. -/

namespace RecordAddress

structure Registry where
  entries : List (Value × Schema) := []

namespace Registry

def find? (registry : Registry) (recordType : Value) : Option Schema :=
  (registry.entries.find? fun entry => entry.1.isSame recordType).map Prod.snd

def recordTypes (registry : Registry) : List Value :=
  registry.entries.map Prod.fst

/-- A record type that is already registered keeps its place. -/
def insert (registry : Registry) (recordType : Value) (target : Schema) : Registry :=
  if (registry.find? recordType).isSome then
    ⟨registry.entries.map fun entry => if entry.1.isSame recordType then (entry.1, target) else entry⟩
  else ⟨registry.entries ++ [(recordType, target)]⟩

/-- The other class that holds the record type so far. -/
def holder? (registry : Registry) (recordType : Value) (target : Schema) : Option Schema :=
  (registry.find? recordType).filter fun former => former.id ≠ target.id

def target (registry : Registry) : Reference Schema → Except Container.Fault Schema
  | .schema schema => .ok schema
  | .named recordType => (registry.find? (.text recordType)).elim (.error (.unregistered recordType)) .ok

end Registry
end RecordAddress
