import RecordAddress.Amendments.Settings

/-! Properties as they are now. A property starts with what the declared field had when its container
was opened, and where it is called by no text, or refers to no schema, with what the settings said then.
Much that can be set on it need not be text. -/

namespace RecordAddress.Amendments

def keyKey := "_key"

def nameKey := "_name"

def mappedKeyKey := "_mapped_key"

def valueTypeKey := "_value_type"

def holderKey := "_container"

def pathKey := "_nested_path"

def nestedKey := "_nested"

def referenceKey := "_schema"

def itemKey := "item"

def collectionKey := "collection"

def makingKey := "make_container"

def bindingKey := "bind"

/-- The attributes that a property does not share with the one it is a copy of. -/
def unsharedKeys : List String :=
  [holderKey, pathKey, nestedKey]

def shared (attributes : Entries Value) : Entries Value :=
  attributes.filter fun entry => !unsharedKeys.contains entry.1

variable (amendments : Amendments)

/-- What a property of an open container started with. -/
def initial (container : Container) (field : Field Schema) : Entries Value :=
  let former := amendments.asOf container.openedAt
  match field.origin, field.content with
  | some _, _ => shared (former.on (Origin.subject ⟨container.schema.id, field.key⟩))
  | none, .scalar _ =>
    match former.setting container.schema typePropertyKey with
    | .ok (.text _) | .error _ => []
    | .ok name => [(keyKey, name), (nameKey, name), (mappedKeyKey, name)]
  | none, .nested _ =>
    match (former.setting container.schema subtypesKey).toOption.bind Value.entries? with
    | some subtypes =>
      match Entries.find? field.name subtypes with
      | none | some (.text _) | some (.description ..) => []
      | some given => [(referenceKey, given)]
    | none => []

def attributes (property : Property) : Entries Value :=
  if amendments.isEmpty then []
  else
    let own := property.place.bind fun place => amendments.on? (.property place)
    own.getD (property.container.elim [] fun container => amendments.initial container property.field)

def find? (property : Property) (key : String) : Option Value :=
  Entries.find? key (amendments.attributes property)

def of : Description → Entries Value
  | .property target => amendments.attributes target
  | described => described.subject?.elim [] amendments.on

def describe (described : Description) : Value :=
  .description described (amendments.of described)

def key (property : Property) : Value :=
  (amendments.find? property keyKey).getD (.text property.field.key)

def name (property : Property) : Value :=
  (amendments.find? property nameKey).getD (.text property.name)

def mappedKey (property : Property) : Value :=
  (amendments.find? property mappedKeyKey).getD (.text property.field.mappedKey)

/-- Nothing that can be set makes a property a collection. -/
def collection? (property : Property) : Option Collection :=
  if (amendments.find? property collectionKey).isSome then none else property.field.collection?

/-- Nothing that can be set is the type of objects. -/
def holdsObjects (property : Property) : Bool :=
  (amendments.find? property valueTypeKey).isNone && property.field.valueType = .object

/-! Paths. -/

/-- The path of a container, which it took over from the property that it was opened for. -/
def pathOf (container : Container) : Value :=
  let given := container.place.bind fun place =>
    (Entries.find? pathKey ((amendments.asOf container.openedAt).on (.property place))).filter fun value =>
      !value.isUnset
  ((amendments.setAt? container pathKey) <|> given).getD (.text container.path)

/-- How a value reads as a part of a path. A number of too many digits makes none. -/
def partOfPath (value : Value) : Except Value.Breakdown String :=
  value.display?.elim (.error (.field (.nameNotAllowed none))) .ok

/-- The path in front of the name of a property. A property on its own has none. -/
def leading (property : Property) : Except Value.Breakdown (Option Value) :=
  match amendments.find? property holderKey with
  | some .null => .ok none
  | some holder => (holder.givenAttribute "nested_path").map some
  | none => .ok (property.container.map amendments.pathOf)

def nestedPath (property : Property) : Except Value.Breakdown Value := do
  let follows : Except Value.Breakdown Value := do
    let leading ← amendments.leading property
    return .text (((← leading.mapM partOfPath).getD "") ++ (← partOfPath (amendments.name property)) ++ ".")
  match amendments.find? property pathKey, property.givenPath with
  | some .null, _ => follows
  | some given, _ => .ok given
  | none, some given => .ok (.text given)
  | none, none => follows

def display (property : Property) : Except Value.Breakdown String := do
  let leading ← amendments.leading property
  let name := amendments.name property
  let label := if name.isTruthy then name else amendments.key property
  return "<" ++ property.field.kindName ++ " " ++ ((← leading.mapM partOfPath).getD "") ++ (← partOfPath label) ++ ">"

/-- The property under the path that it has now, which has to be text. -/
def located (property : Property) : Except Value.Breakdown Property := do
  if amendments.isEmpty then return property
  match ← amendments.leading property, amendments.name property with
  | none, _ => .error .noObject
  | some (.text leading), .text name =>
    return { property with field := { property.field with name }, givenPrefix := some leading }
  | _, _ => .error .noName

/-- A copy of a property under a path of its own, which has what the property has. -/
def copyOf (property : Property) (container : Container) (path : Option String) : Property × Amendments :=
  let place : Place := { ground := .loose }
  let copy := { property with container := some container, givenPath := path, place := some place }
  (copy, if amendments.isEmpty then amendments
    else amendments.put (.property place) (shared (amendments.attributes property)))

/-! Nested properties. -/

/-- A class without anything to be asked of, other values standing in the way of what is told. -/
def strange (hidden : List Operation) : Schema where
  id := Schema.base.id
  name := ""
  recordType := ""
  typeProperty := ""
  subtypes := []
  fields := []
  hidden := hidden
  isMixin := true

/-- What is no container, where one is looked for. It tells nothing of itself. -/
def strangeContainer : Container where
  schema := strange []
  path := ""
  entries := []

def reference : Value → Reference Schema
  | .text recordType => .named recordType
  | .description (.schema target) _ => .schema target
  | value => .schema <| strange <| Operation.all.filter fun operation =>
      (value.givenAttribute operation.key).toOption.isSome

/-- What single values of a property refer to, if they are objects. -/
def referenceOf (property : Property) : Option (Reference Schema) :=
  match property.field.content with
  | .scalar _ => none
  | .nested given => some ((amendments.find? property referenceKey).elim given reference)

/-- What the nested objects of a property are described by. The elements of a collection tell that
themselves. -/
def nestedReference (property : Property) : Except Container.Fault (Option (Reference Schema)) := do
  if (amendments.find? property makingKey).isSome then .error .hidden
  match property.item? with
  | none => return amendments.referenceOf property
  | some item =>
    match amendments.find? property itemKey with
    | some given =>
      .error (if (given.givenAttribute makingKey).toOption.isSome then .hidden else .notOffered)
    | none =>
      if (amendments.find? item makingKey).isSome then .error .hidden
      return amendments.referenceOf item

/-! Where nothing was changed, all is as it was declared. -/

@[simp] theorem attributes_unchanged (property : Property) : ({} : Amendments).attributes property = [] := rfl

@[simp] theorem find?_unchanged (property : Property) (key : String) :
    ({} : Amendments).find? property key = none := rfl

@[simp] theorem name_unchanged (property : Property) : ({} : Amendments).name property = .text property.name := rfl

@[simp] theorem mappedKey_unchanged (property : Property) :
    ({} : Amendments).mappedKey property = .text property.field.mappedKey := rfl

@[simp] theorem collection?_unchanged (property : Property) :
    ({} : Amendments).collection? property = property.field.collection? := rfl

@[simp] theorem holdsObjects_unchanged (property : Property) :
    ({} : Amendments).holdsObjects property = decide (property.field.valueType = .object) := by
  simp [holdsObjects]

@[simp] theorem pathOf_unchanged (container : Container) : ({} : Amendments).pathOf container = .text container.path := by
  cases seen : container.place <;> simp [pathOf, seen]

@[simp] theorem located_unchanged (property : Property) : ({} : Amendments).located property = .ok property := rfl

end RecordAddress.Amendments
