import RecordAddress.Context

/-! Pointers, and what they show of their schema, as objects inside a record. Their attributes can be
read like those of any object. An attribute that is not there is no object to go on from, and one that
follows from others may break down with them. -/

namespace RecordAddress

def ElementIndex.toValue : ElementIndex → Value
  | position index => .int index
  | afterLast => .text "-"
  | key name => .text name

def Value.orAbsent (value? : Option Value) : Except Value.Breakdown Value :=
  value?.elim (.error .noObject) .ok

namespace Amendments
variable (amendments : Amendments)

/-- The keys that the name and the value of a member of a listing are kept under. -/
def memberKey : String → String
  | "name" => "_name_"
  | "value" => "_value_"
  | key => key

/-- A value type shows its name, and every other value type under that one's name. -/
def ofValueType (type : ValueType) (key : String) : Option Value :=
  amendments.set? (.valueType type) (memberKey key)
    <|> match memberKey key with
      | "_value_" => some (.text type.name)
      | "_name_" => some (.text type.name.toUpper)
      | key => (ValueType.all.find? fun other => other.name.toUpper = key).map (amendments.shown ∘ .valueType)

def ofCollection (kind : Collection) (key : String) : Option Value :=
  amendments.set? (.collection kind) (memberKey key)
    <|> match memberKey key with
      | "_value_" => some (.text kind.name)
      | "_name_" => some (.text kind.name.toUpper)
      | key => (Collection.all.find? fun other => other.name.toUpper = key).map (amendments.shown ∘ .collection)

def ofDefaultStyle : String → Option Value
  | "func" => some (amendments.shown (.style .upperCamel))
  | "args" => some (.tuple [])
  | "keywords" => some (.dict [("uppercase_first_letter", .bool false)])
  | _ => none

/-- An operation that other values may be put in the place of. -/
def operation (given : Option Value) : Option Value :=
  given <|> some (amendments.shown .operation)

/-- What every object has that cannot be made of its class alone. -/
def abstractKey := "_abc_impl"

/-- The operations that belong to schemas and not to their objects. -/
def schemaOperations : List String :=
  ["mro", "register", "_dump_registry", "_abc_registry_clear", "_abc_caches_clear", abstractKey]

def orderKey := "mro"

def ofOptionsClass (order : List (Nat × Options Schema)) (key : String) : Option Value :=
  amendments.ofOrder order key <|> if key = orderKey then amendments.operation none else none

def ofSettingsMaker (key : String) : Option Value :=
  amendments.set? .settingsMaker key <|> if key = orderKey then amendments.operation none else none

/-- A mapping with the things described that are in it as they are now. -/
def renewed : Value → Value
  | .dict entries => .dict (entries.map fun entry => (entry.1, renew entry.2))
  | value => value
where
  renew : Value → Value
    | .description described _ => amendments.describe described
    | value => value

def ofProperties (properties : List Property) : List (String × Value) :=
  properties.map fun property => (property.name, amendments.describe (.property property))

/-- The attributes that only the containers of polymorphic schemas have. -/
def ofPolymorphic (container : Container) (key : String) : Except Value.Breakdown Value :=
  let given := amendments.setAt? container
  let variants := (given variantsKey).elim (.dict (amendments.ofProperties container.subtypes)) amendments.renewed
  match key with
  | "type_property_name" => amendments.typeProperty container
  | "_subtypes" => .ok variants
  | "subtypes" => variants.entries?.elim (.error .noMapping) (.ok ∘ .view)
  | "has_subtype" | "get_subtype_descriptor" => Value.orAbsent (amendments.operation (given key))
  | key => Value.orAbsent (given key)

def ofContainer (container : Container) (key : String) : Except Value.Breakdown Value :=
  let given := amendments.setAt? container
  match key with
  | "schema" => .ok ((given key).getD (amendments.describe (.schema container.schema)))
  | "record_type" => amendments.recordTypeAt container
  | "nested_path" | "_nested_path" => .ok (amendments.pathOf container)
  | "_properties" =>
    .ok ((given key).elim (.dict (amendments.ofProperties container.properties)) amendments.renewed)
  | "property_names" => (amendments.names container).map .tuple
  | "is_polymorphic" => .ok (amendments.isPolymorphic container)
  | "has_property" | "get_property_descriptor" | "_abc_impl" => Value.orAbsent (amendments.operation (given key))
  | key => if container.isPolymorphic then amendments.ofPolymorphic container key else Value.orAbsent (given key)

/-- Whether the pointer addresses an element of what was said to be no collection any more. -/
def isStray (pointer : Pointer) : Bool :=
  pointer.property?.any fun target => (amendments.find? target collectionKey).isSome

/-- Whether the pointer addresses the position after the last element of what still is an array. -/
def isDash (pointer : Pointer) : Bool :=
  pointer.isDash && !amendments.isStray pointer

@[simp] theorem isStray_unchanged (pointer : Pointer) : ({} : Amendments).isStray pointer = false := by
  cases seen : pointer.property? <;> simp [isStray, seen]

@[simp] theorem isDash_unchanged (pointer : Pointer) : ({} : Amendments).isDash pointer = pointer.isDash := by
  simp [isDash]

end Amendments

namespace Context
variable (context : Context)

def describe (described : Description) : Value :=
  context.amendments.describe described

/-! Classes. -/

/-- The root container of a class, or of the nearest one that it descends from which has been opened. -/
def rootOf (target : Schema) : Option Value :=
  target.lineage.findSome? fun layer =>
    let opened (again : Bool) : Option Value :=
      (context.memory.known? { ground := .schema layer.id again }).map (context.describe ∘ .container)
    match context.amendments.set? (.classOf layer.id) Amendments.rootKey with
    | none => opened false
    | some .null => opened true <|> some .null
    | some given => some given

def ofSchema (target : Schema) (key : String) : Option Value :=
  if key = Amendments.rootKey then context.rootOf target
  else if Amendments.classNameKeys.contains key then
    context.amendments.set? (.classOf target.id) key <|> some (.text target.name)
  else if key = Amendments.homeKey then context.amendments.home? target
  else if target.isMixin then
    context.amendments.ofClass? target key
      <|> if key = Amendments.orderKey then context.amendments.operation none else none
  else if key = Amendments.settingsKey then
    context.amendments.set? (.classOf target.id) key <|> some (context.describe (.settings target))
  else if key = Amendments.declaredKey then
    context.amendments.set? (.classOf target.id) key <|> some (.view (target.fields.map fun field =>
      (field.key, context.describe (.property (Amendments.declaration target field)))))
  else
    context.amendments.ofClass? target key
      <|> if Amendments.schemaOperations.contains key then context.amendments.operation none else none

/-! Properties. -/

/-- The reference of a property that holds single objects, as it was given. -/
def referenceOf? (property : Property) : Option Value :=
  match property.field.arrangement with
  | .single (.nested reference) =>
    context.amendments.find? property Amendments.referenceKey <|> some (context.amendments.referred reference)
  | _ => none

/-- The schema of the objects of a property. One that is given by its record type is looked up. -/
def schemaOf (property : Property) : Except Value.Breakdown Value :=
  match context.referenceOf? property with
  | some (.text recordType) =>
    match context.registry.target (.named recordType) with
    | .ok schema => .ok (context.describe (.schema schema))
    | .error fault => .error (.container fault)
  | found => Value.orAbsent (found <|> context.amendments.find? property "schema")

/-- The container of the nested properties, if it was opened before. That a declared property of a
container has none is known. -/
def knownNested (property : Property) : Value :=
  match property.place.bind context.memory.known?, property.field.content, property.container with
  | some container, _, _ => context.describe (.container container)
  | none, .scalar _, some _ => if property.field.origin.isSome then .null else .missing
  | none, _, _ => .missing

def nestedOf (property : Property) : Except Value.Breakdown Value := do
  let nested ← (context.nested property).mapError .container
  return nested.elim .null (context.describe ∘ .container)

/-- An attribute of a property. Reading may look a record type up, which need not be there. -/
def ofProperty (property : Property) (key : String) : Except Value.Breakdown Value :=
  let amendments := context.amendments
  let given := amendments.find? property
  match key with
  | "key" | "_key" => .ok (amendments.key property)
  | "name" | "_name" => .ok (amendments.name property)
  | "mapped_key" | "_mapped_key" => .ok (amendments.mappedKey property)
  | "scalar_value_type" | "_value_type" =>
    .ok ((given Amendments.valueTypeKey).getD (context.describe (.valueType property.field.valueType)))
  | "container" | "_container" =>
    .ok ((given Amendments.holderKey).getD (property.container.elim .null (context.describe ∘ .container)))
  | "nested_path" => amendments.nestedPath property
  | "_nested_path" => .ok ((given key).getD (property.givenPath.elim .null .text))
  | "nested_properties" => (given Amendments.nestedKey).elim (context.nestedOf property) .ok
  | "_nested" => .ok ((given key).getD (context.knownNested property))
  | "schema" => context.schemaOf property
  | "_schema" => Value.orAbsent (context.referenceOf? property <|> given key)
  | "item" => Value.orAbsent (given key <|> property.item?.map (context.describe ∘ .property))
  | "collection" =>
    .ok ((given key).getD (property.field.collection?.elim .null (context.describe ∘ .collection)))
  | "is_array" => .ok (.bool (amendments.collection? property = some .array))
  | "is_map" => .ok (.bool (amendments.collection? property = some .map))
  | "bind" | "make_container" | "_abc_impl" => Value.orAbsent (amendments.operation (given key))
  | key => Value.orAbsent (given key)

def ofDescription (described : Description) (key : String) : Except Value.Breakdown Value :=
  let given := Entries.find? key (context.amendments.of described)
  match described with
  | .property target => context.ofProperty target key
  | .container target => context.amendments.ofContainer target key
  | .schema target => Value.orAbsent (context.ofSchema target key)
  | .settings target =>
    Value.orAbsent (given <|> context.amendments.madeWith target key <|> context.amendments.set? .settingsMaker key)
  | .options order => Value.orAbsent (context.amendments.ofOptionsClass order key)
  | .settingsMaker => Value.orAbsent (context.amendments.ofSettingsMaker key)
  | .defaultStyle _ => Value.orAbsent (given <|> context.amendments.ofDefaultStyle key)
  | .valueType type => Value.orAbsent (context.amendments.ofValueType type key)
  | .collection kind => Value.orAbsent (context.amendments.ofCollection kind key)
  | .style _ => Value.orAbsent given
  | .operation => .error .noObject

/-- An attribute of a pointer, null if it is not set. -/
def ofPointer (pointer : Pointer) : String → Value
  | "pointer_string" => .text pointer.text
  | "property_path" => .text pointer.path
  | "is_collection_element" => .bool pointer.isElement
  | "element_index" => (pointer.index?.map ElementIndex.toValue).getD .null
  | "is_dash" => .bool (context.amendments.isDash pointer)
  | "parent" => if pointer.isRoot then .null else .pointer pointer.parent
  | "chain" => .tuple (pointer.chain.map .pointer)
  | "json_pointer" => (pointer.location.toOption.map Value.ofLocation).getD .null
  | "property_descriptor" => (pointer.property?.map (context.describe ∘ .property)).getD .null
  | "children_container" => (pointer.children?.map (context.describe ∘ .container)).getD .null
  | "create_child_pointer" | "is_root" | "is_child_of" | "get_value" | "add_value" | "replace_value"
  | "remove_value" | "_root" | "_child" | "_property_child" | "_element_child" | "_create_child_pointer"
  | "_get_immediate_value" | "_locate" | "_set_value" => context.amendments.shown .operation
  | _ => .null

/-- An attribute that every location has unless another one was set in its place. -/
def ofLocation : String → Value
  | "get" | "set" | "resolve" | "to_last" | "walk" | "contains" | "join" | "get_part" | "get_parts"
  | "from_parts" => context.amendments.shown .operation
  | _ => .null

end Context
end RecordAddress
