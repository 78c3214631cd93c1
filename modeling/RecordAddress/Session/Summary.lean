import RecordAddress.Pointer.Access

/-! What is told of properties, containers and pointers, as they are at the time. -/

namespace RecordAddress

structure PropertySummary where
  kind : String
  written : String
  key : Value
  name : Value
  mappedKey : Value
  valueType : Value
  collection : Option Collection
  nestedPath : Value

def PropertySummary.of (amendments : Amendments) (property : Property) : Except Value.Breakdown PropertySummary := do
  let written ← amendments.display property
  let valueType ← match amendments.find? property Amendments.valueTypeKey with
    | none => Value.orAbsent (amendments.ofValueType property.field.valueType "value")
    | some given => given.givenAttribute "value"
  return { kind := property.field.kindName, written, key := amendments.key property
           name := amendments.name property, mappedKey := amendments.mappedKey property, valueType
           collection := amendments.collection? property, nestedPath := ← amendments.nestedPath property }

/-- What only containers with subtypes have. -/
structure VariantSummary where
  typeProperty : Value
  names : List Value
  properties : List PropertySummary

structure ContainerSummary where
  written : String
  recordType : Value
  path : Value
  names : List Value
  isPolymorphic : Value
  properties : List PropertySummary
  variants : Option VariantSummary

namespace ContainerSummary

/-- With or without its properties. A container that is said to be polymorphic has to have what
polymorphic containers have. -/
def of (amendments : Amendments) (full : Bool) (container : Container) :
    Except Value.Breakdown ContainerSummary := do
  let written ← amendments.written container
  let recordType ← amendments.recordTypeAt container
  let names ← amendments.names container
  let isPolymorphic := amendments.isPolymorphic container
  let summarize (listed : Except Value.Breakdown (List Property)) : Except Value.Breakdown (List PropertySummary) := do
    if full then (← listed).mapM (PropertySummary.of amendments) else return []
  let told ←
    if isPolymorphic.isTruthy then do
      let typeProperty ← amendments.typeProperty container
      pure (some (typeProperty, ← amendments.subtypeNames container))
    else pure none
  let properties ← summarize (amendments.properties container)
  let variants ← told.mapM fun (typeProperty, names) => do
    return { typeProperty, names, properties := ← summarize (amendments.subtypes container) }
  return { written, recordType, path := amendments.pathOf container, names, isPolymorphic, properties, variants }

end ContainerSummary

structure PointerSummary where
  pointer : Pointer
  isDash : Bool
  property : Option PropertySummary
  children : Option ContainerSummary

def PointerSummary.of (amendments : Amendments) (pointer : Pointer) : Except Value.Breakdown PointerSummary := do
  let property ← pointer.property?.mapM (PropertySummary.of amendments)
  let children ← pointer.children?.mapM (ContainerSummary.of amendments false)
  return { pointer, isDash := amendments.isDash pointer, property, children }

structure SchemaSummary where
  recordType : Value
  typeProperty : Value
  subtypes : List Value
  fields : List PropertySummary

def SchemaSummary.of (amendments : Amendments) (schema : Schema) : Except Value.Breakdown SchemaSummary := do
  let recordType ← amendments.setting schema Amendments.recordTypeKey
  let typeProperty ← amendments.setting schema Amendments.typePropertyKey
  let subtypes ← (← amendments.setting schema Amendments.subtypesKey).elements
  let fields ← (← amendments.declaredFields schema).mapM fun field =>
    PropertySummary.of amendments (Amendments.declaration schema field)
  return { recordType, typeProperty, subtypes, fields }

end RecordAddress
