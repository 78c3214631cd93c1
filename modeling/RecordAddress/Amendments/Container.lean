import RecordAddress.Amendments.Property

/-! Containers as they are now, and as they are opened now. Containers ask their schemas for the record
type and the type property whenever these are needed. Their properties and subtypes are those that they
were opened with, unless others were put in the place of these. -/

namespace RecordAddress.Amendments

def propertiesKey := "_properties"

def variantsKey := "_subtypes"

def rootKey := "_root_container"

variable (amendments : Amendments)

def recordTypeAt (container : Container) : Except Value.Breakdown Value :=
  amendments.settingAt container recordTypeKey

def written (container : Container) : Except Value.Breakdown String := do
  let recordType ← amendments.recordTypeAt container
  match recordType.written?, (amendments.pathOf container).written? with
  | some recordType, some path => return "<" ++ container.kindName ++ " " ++ recordType ++ " at " ++ path ++ ">"
  | _, _ => .error (.field (.nameNotAllowed none))

def isPolymorphic (container : Container) : Value :=
  (amendments.setAt? container "is_polymorphic").getD (.bool container.isPolymorphic)

def typeProperty (container : Container) : Except Value.Breakdown Value :=
  if container.isPolymorphic then amendments.settingAt container typePropertyKey
  else (amendments.setAt? container "type_property_name").elim (.error .noObject) .ok

/-- An operation of a container that a value was put in the place of cannot be asked for. -/
def ask (container : Container) (operation : String) : Except Value.Breakdown Unit :=
  if (amendments.setAt? container operation).isSome then .error .noOperation else .ok ()

def asProperty : Value → Except Value.Breakdown Property
  | .description (.property target) _ => .ok target
  | _ => .error .noObject

/-! Properties. -/

def nameIn (container : Container) : Option String × Field Schema → Value
  | (some name, _) => .text name
  | (none, field) => (Entries.find? nameKey (amendments.initial container field)).getD (.text field.name)

def names (container : Container) : Except Value.Breakdown (List Value) :=
  match amendments.setAt? container propertiesKey with
  | none => .ok (container.entries.map (amendments.nameIn container))
  | some given => given.elements

def hasProperty (container : Container) (name : String) : Except Value.Breakdown Bool := do
  amendments.ask container "has_property"
  match amendments.setAt? container propertiesKey with
  | none => return (container.property? name).isSome
  | some given => given.includes name

def property (container : Container) (name : String) : Except Value.Breakdown Property := do
  amendments.ask container "get_property_descriptor"
  match amendments.setAt? container propertiesKey with
  | none => (container.property? name).elim (.error (.noEntry name)) .ok
  | some given => asProperty (← given.neededEntry name)

def property? (container : Container) (name : String) : Except Value.Breakdown (Option Property) := do
  if ← amendments.hasProperty container name then return some (← amendments.property container name) else return none

def properties (container : Container) : Except Value.Breakdown (List Property) := do
  let names ← amendments.names container
  if names.isEmpty then return []
  amendments.ask container "get_property_descriptor"
  match amendments.setAt? container propertiesKey with
  | none => return container.properties
  | some given => (← given.entries?.elim (.error .noMapping) .ok).mapM fun entry => asProperty entry.2

/-! Subtypes. A container without any has nothing that tells of them, but it can be said to have. -/

def subtypeNames (container : Container) : Except Value.Breakdown (List Value) :=
  if container.isPolymorphic then
    match amendments.setAt? container variantsKey with
    | none => .ok (container.subtypes.map fun subtype => .text subtype.name)
    | some given => if given.hasParts then given.elements else .error .noMapping
  else (amendments.setAt? container "subtypes").elim (.error .noObject) Value.elements

/-- Only containers with subtypes have the operations on these. -/
def askSubtypes (container : Container) (operation : String) : Except Value.Breakdown Unit := do
  amendments.ask container operation
  if !container.isPolymorphic then .error .noObject

def hasSubtype (container : Container) (name : String) : Except Value.Breakdown Bool := do
  amendments.askSubtypes container "has_subtype"
  match amendments.setAt? container variantsKey with
  | none => return (container.subtype? name).isSome
  | some given => given.includes name

def subtype (container : Container) (name : String) : Except Value.Breakdown Property := do
  amendments.askSubtypes container "get_subtype_descriptor"
  match amendments.setAt? container variantsKey with
  | none => (container.subtype? name).elim (.error (.noEntry name)) .ok
  | some given => asProperty (← given.neededEntry name)

def subtype? (container : Container) (name : String) : Except Value.Breakdown (Option Property) := do
  if ← amendments.hasSubtype container name then return some (← amendments.subtype container name) else return none

def subtypes (container : Container) : Except Value.Breakdown (List Property) := do
  let names ← amendments.subtypeNames container
  if names.isEmpty then return []
  amendments.askSubtypes container "get_subtype_descriptor"
  match amendments.setAt? container variantsKey with
  | none => return container.subtypes
  | some given => (← given.entries?.elim (.error .noMapping) .ok).mapM fun entry => asProperty entry.2

/-! Opening. -/

/-- A declared field, on its own. -/
def declaration (schema : Schema) (field : Field Schema) : Property where
  field := field
  place := some { ground := .field ⟨schema.id, field.key⟩ }

/-- The entry of a declared field in a container that is opened now. -/
def entryOf (schema : Schema) (field : Field Schema) :
    Except Container.Fault (Option String × Field Schema) := do
  let declared := declaration schema field
  if (amendments.find? declared bindingKey).isSome then .error .hidden
  let name := amendments.name declared
  match name.label with
  | .text name => return (some name, { field with name })
  | .other => return (none, { field with name := name.display?.getD "" })
  | .unusable => .error .noName

/-- What stands in the place of the declared fields of a class. Mixins declare none. -/
def declaredIn (target : Schema) : Except Value.Breakdown (Option Value) :=
  if target.isMixin then (amendments.ofClass? target declaredKey).elim (.error .noObject) (.ok ∘ some)
  else .ok (amendments.set? (.classOf target.id) declaredKey)

/-- The declared fields of a class. What was put in their place are no fields. -/
def declaredFields (target : Schema) : Except Value.Breakdown (List (Field Schema)) := do
  match ← amendments.declaredIn target with
  | none => return target.fields
  | some given => if given.entries? matches some [] then return [] else .error .noObject

/-- The declared field of a key, which has to be there. -/
def declaredField (target : Schema) (key : String) : Except Value.Breakdown Property := do
  match ← amendments.declaredIn target with
  | none => (target.field? key).elim (.error (.noEntry key)) fun field => .ok (declaration target field)
  | some given => asProperty (← given.neededEntry key)

/-- The name of the type property that a container is opened with. Nothing but an untrue value can stand
in the place of a text. -/
def typeEntry (given : Value) : Except Container.Fault (Option String × Field Schema) := do
  match given.label with
  | .text name =>
    (Field.checkName name).mapError .field
    return (some name, Container.typeField name)
  | .other => if given.isTruthy then .error .noName else return (none, Container.typeField (given.display?.getD ""))
  | .unusable => .error .noName

/-- The container of a schema as it is opened now. -/
def opening (schema : Schema) (path : String) (place : Option Place) : Except Container.Fault Container := do
  if amendments.isEmpty then Container.ofSchema schema path place
  else
    let settle {α : Type} (read : Except Value.Breakdown α) := read.mapError Value.Breakdown.containerFault
    if amendments.hides schema .container then .error .hidden
    if schema.isMixin then .error .notOffered
    let subtypes ← settle (amendments.setting schema subtypesKey)
    let fields ← settle (amendments.declaredFields schema)
    let entries := Entries.ofList (← fields.mapM (amendments.entryOf schema))
    let openedAt := amendments.time
    if subtypes.isTruthy then
      let (name, field) ← typeEntry (← settle (amendments.setting schema typePropertyKey))
      let subtypes ← subtypes.entries?.elim (.error .notOffered) .ok
      for (name, _) in subtypes do (Field.checkName name).mapError .field
      let variants := subtypes.map fun (name, given) => (name, reference given)
      return { schema, path, entries := Entries.put name field entries, variants := some variants, place, openedAt }
    return { schema, path, entries, place, openedAt }

/-! Where nothing was changed, all is as it was declared. -/

@[simp] theorem isPolymorphic_unchanged (container : Container) :
    ({} : Amendments).isPolymorphic container = .bool container.isPolymorphic := by
  simp [isPolymorphic]

theorem property_unchanged {container : Container} {name : String} {target : Property} :
    ({} : Amendments).property container name = .ok target ↔ container.property? name = some target := by
  simp only [property, ask, setAt?_unchanged]
  cases container.property? name <;> simp [bind, Except.bind]

@[simp] theorem property?_unchanged (container : Container) (name : String) :
    ({} : Amendments).property? container name = .ok (container.property? name) := by
  simp only [property?, hasProperty, property, ask, setAt?_unchanged]
  cases container.property? name <;> rfl

@[simp] theorem subtype?_unchanged (container : Container) (name : String) (polymorphic : container.isPolymorphic) :
    ({} : Amendments).subtype? container name = .ok (container.subtype? name) := by
  simp only [subtype?, hasSubtype, subtype, askSubtypes, ask, setAt?_unchanged, polymorphic]
  cases container.subtype? name <;> rfl

@[simp] theorem opening_unchanged (schema : Schema) (path : String) (place : Option Place) :
    ({} : Amendments).opening schema path place = Container.ofSchema schema path place := rfl

end RecordAddress.Amendments
