import RecordAddress.Entries
import RecordAddress.Schema
import RecordAddress.Text.Quoted

/-! Containers: the properties of a record type, or of a nested object at some path of it. The
container of a nested object is made when it is first asked for, so that schemas may refer to
record types that are registered later, also to themselves. -/

namespace RecordAddress

inductive Segment where
  | property (name : String)
  | subtype (name : String)
  deriving DecidableEq, Repr

/-- What containers are opened from: a schema, a field on its own, or the elements of a field. -/
inductive Ground where
  /-- A root container that was taken away is opened once more. -/
  | schema (id : Nat) (again : Bool := false)
  | field (holder : Origin)
  | item (origin : Origin)
  /-- A copy of a field that is made for one occasion. -/
  | loose
  deriving DecidableEq, Repr

/-- Where a container stands: on which ground, and below which properties and subtypes. Most places
differ in their depth, so that is compared before the trails are. -/
structure Place where
  ground : Ground
  depth : Nat := 0
  /-- The segments that lead to the place, the last one first. -/
  trail : List Segment := []
  deriving DecidableEq, Repr

def Place.below (place : Place) (segment : Segment) : Place :=
  { place with depth := place.depth + 1, trail := segment :: place.trail }

/-- What a container took over from its schema when it was opened. -/
structure Container where
  schema : Schema
  /-- The dotted path in front of the names of the properties. -/
  path : String
  /-- The properties by their names. One with a name that is no text cannot be found. -/
  entries : Entries (Field Schema) (Option String)
  /-- The subtypes, if the container tells any apart. -/
  variants : Option (Entries (Reference Schema)) := none
  /-- Containers made outside of any record type stand nowhere. -/
  place : Option Place := none
  /-- The number of changes that had been made to schemas when it was opened. -/
  openedAt : Nat := 0

/-- A field as a property of a container, or on its own. -/
structure Property where
  field : Field Schema
  /-- The container that the field belongs to. -/
  container : Option Container := none
  /-- The path in front of the name, if it is not that of the container. -/
  givenPrefix : Option String := none
  /-- The path of nested properties, if it does not follow from the name. -/
  givenPath : Option String := none
  /-- Where the container of the nested properties stands. -/
  place : Option Place := none

namespace Property

def name (property : Property) : String :=
  property.field.name

def containerPath (property : Property) : String :=
  property.givenPrefix.getD ((property.container.map Container.path).getD "")

def path (property : Property) : String :=
  property.containerPath ++ property.name

def nestedPath (property : Property) : String :=
  property.givenPath.getD (property.path ++ ".")

/-- The elements of a collection, as a property on their own. -/
def item? (property : Property) : Option Property :=
  property.field.item?.map fun field =>
    { field, place := property.field.origin.map fun origin => { ground := .item origin } }

end Property

namespace Container

inductive Fault where
  | unregistered (recordType : String)
  /-- What is referred to has no container to offer, or lacks what one is made from. -/
  | notOffered
  /-- Another value stands where the container is looked for. -/
  | hidden
  /-- What is to be the type property is no name. -/
  | noName
  | field (fault : Field.Fault)
  deriving DecidableEq, Repr

end Container

/-- How a container is opened: at a place, at a path, and of the schema that is referred to. -/
abbrev Opener := Option Place → String → Reference Schema → Except Container.Fault Container

namespace Container

def typeField (name : String) : Field Schema where
  arrangement := .single (.scalar .string)
  key := name
  name := name
  mappedKey := name

def subtypeField (name : String) (reference : Reference Schema) : Field Schema where
  arrangement := .single (.nested reference)
  key := name
  name := name
  mappedKey := name

def declaredEntries (schema : Schema) : Entries (Field Schema) (Option String) :=
  schema.fields.map fun field => (some field.name, field)

/-- The container of a schema: the declared fields, and with subtypes the type property after them. The
name of the type property is checked here and nowhere before. -/
def ofSchema (schema : Schema) (path : String) (place : Option Place) : Except Fault Container := do
  if schema.hidden.contains .container then .error .hidden
  if schema.isMixin then .error .notOffered
  let entries := declaredEntries schema
  if schema.isPolymorphic then
    (Field.checkName schema.typeProperty).mapError .field
    let entries := Entries.put (some schema.typeProperty) (typeField schema.typeProperty) entries
    return { schema, path, entries, variants := some schema.subtypes, place }
  return { schema, path, entries, place }

def root (opener : Opener) (schema : Schema) : Except Fault Container := do
  if schema.hidden.contains .rootContainer then .error .hidden
  if schema.isMixin then .error .notOffered
  opener (some { ground := .schema schema.id }) "" (.schema schema)

def isPolymorphic (container : Container) : Bool :=
  container.variants.isSome

def bind (container : Container) (segment : Segment) (field : Field Schema) : Property where
  field := field
  container := some container
  place := container.place.map (·.below segment)

def properties (container : Container) : List Property :=
  container.entries.map fun entry => container.bind (.property (entry.1.getD "")) entry.2

def property? (container : Container) (name : String) : Option Property :=
  (Entries.find? (some name) container.entries).map (container.bind (.property name))

def subtypes (container : Container) : List Property :=
  (container.variants.getD []).map fun subtype =>
    container.bind (.subtype subtype.1) (subtypeField subtype.1 subtype.2)

def subtype? (container : Container) (name : String) : Option Property :=
  (Entries.find? name (container.variants.getD [])).map fun reference =>
    container.bind (.subtype name) (subtypeField name reference)

def kindName (container : Container) : String :=
  if container.isPolymorphic then "PolymorphicContainer" else "PropertiesContainer"

end Container

/-- The container of the nested properties, if the property holds objects. -/
def Property.nested (opener : Opener) (property : Property) : Except Container.Fault (Option Container) :=
  match property.field.content with
  | .scalar _ => .ok none
  | .nested reference => (opener property.place property.nestedPath reference).map some

end RecordAddress
