import RecordAddress.Schema.Container

/-! Containers that were opened once stay as they are, even when a record type is redefined. A
`Memory` keeps them by the places where they stand. -/

namespace RecordAddress

structure Memory where
  found : Entries Container Place := []
  /-- Without keeping anything, every record type is looked up again each time. -/
  keeps : Bool := true

namespace Memory

def forgetful : Memory where
  keeps := false

def known? (memory : Memory) (place : Place) : Option Container :=
  Entries.find? place memory.found

/-- The first container of a place stays there. -/
def remember (memory : Memory) (container : Container) : Memory :=
  match container.place with
  | some place =>
    if memory.keeps && !Entries.contains place memory.found then
      { memory with found := (place, container) :: memory.found }
    else memory
  | none => memory

def rememberAll (memory : Memory) (containers : List Container) : Memory :=
  containers.foldl remember memory

theorem rememberAll_append (memory : Memory) (first second : List Container) :
    memory.rememberAll (first ++ second) = (memory.rememberAll first).rememberAll second :=
  List.foldl_append

theorem known?_remember {memory : Memory} {container : Container} {place : Place}
    (keeps : memory.keeps = true) (standing : container.place = some place) (other : Place) :
    (memory.remember container).known? other =
      if place = other then memory.known? other <|> some container else memory.known? other := by
  simp only [remember, standing, keeps, known?, Entries.contains]
  by_cases same : place = other
  · subst same
    cases seen : Entries.find? place memory.found <;> simp [seen, Entries.find?_cons]
  · split <;> simp [Entries.find?_cons, same]

end Memory
end RecordAddress
