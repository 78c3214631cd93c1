import RecordAddress.Amendments.Container
import RecordAddress.Registry
import RecordAddress.Schema.Memory
import RecordAddress.Schema.Opening

/-! What reading a record depends on besides the record: the classes that are registered, the containers
that are open, and what was changed of either. -/

namespace RecordAddress

structure Context where
  registry : Registry := {}
  memory : Memory := {}
  amendments : Amendments := {}

namespace Context
variable (context : Context)

/-- Gives the container that is open at the place, else opens what is registered now. -/
def opener : Opener := fun place path reference =>
  match place.bind context.memory.known? with
  | some container => .ok container
  | none => do context.amendments.opening (← context.registry.target reference) path place

def rootPlace (schema : Schema) : Place where
  ground := .schema schema.id (context.amendments.set? (.classOf schema.id) Amendments.rootKey).isSome

/-- The root container of a schema. One that was taken away is opened again. -/
def root (schema : Schema) : Except Container.Fault Container :=
  if context.amendments.isEmpty then Container.root context.opener schema
  else do
    if context.amendments.hides schema .rootContainer then .error .hidden
    if schema.isMixin then .error .notOffered
    match context.amendments.set? (.classOf schema.id) Amendments.rootKey with
    | none | some .null => context.opener (some (context.rootPlace schema)) "" (.schema schema)
    | some _ => .error .notOffered

/-- The container of the nested properties as it is opened anew at the place of the property. -/
def openNested (property : Property) : Except Container.Fault (Option Container) := do
  let settle {α : Type} (read : Except Value.Breakdown α) := read.mapError Value.Breakdown.containerFault
  let path ← settle (context.amendments.nestedPath property)
  let reference ← context.amendments.nestedReference property
  reference.mapM (context.opener property.place (path.display?.getD ""))

/-- The container of the nested properties, if the property holds objects. -/
def nested (property : Property) : Except Container.Fault (Option Container) :=
  if context.amendments.isEmpty then property.nested context.opener
  else
    match context.amendments.find? property Amendments.nestedKey with
    | some value => .ok (if value.isUnset then none else some Amendments.strangeContainer)
    | none =>
      match property.place.bind context.memory.known? with
      | some container => .ok (some container)
      | none => context.openNested property

def rootOpening : Schema → Opening Container.Fault Container :=
  fun schema => .ofRoot (context.root schema)

def nestedOpening (property : Property) : Opening Container.Fault (Option Container) :=
  .ofNested (context.nested property)

end Context
end RecordAddress
