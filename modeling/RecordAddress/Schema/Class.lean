import RecordAddress.Entries
import RecordAddress.Schema
import RecordAddress.Schema.Linearization

/-! Class definitions. A class inherits fields and settings from its ancestors; one that descends
from a schema is a schema, any other is a mixin. The names of a schema are checked when its class
is defined, and a definition that fails defines nothing. -/

namespace RecordAddress

/-- What a class has in the place of its settings. -/
inductive Settings where
  | given (order : OptionsOrder Schema)
  /-- Another value, such as a field of a mixin. It may set something but cannot be extended. -/
  | value (options : Options Schema)

def Settings.options : Settings → Options Schema
  | given order => order.effective
  | value options => options

structure Body where
  id : Nat
  isSchema : Bool
  /-- The fields of the class body itself. -/
  own : Entries (Field Schema)
  /-- A schema hands down all of its declared fields, a mixin only its own. -/
  handedDown : Entries (Field Schema)
  settings : Option Settings
  /-- The keys of the class that values were put under. -/
  overwritten : List String := []
  /-- Whether something else than text was put in the place of the name of a field that is handed down. -/
  isMisnamed : Bool := false

/-- Whether the class itself has a value under the key. -/
def Body.holds (body : Body) (key : String) : Bool :=
  body.overwritten.contains key || (!body.isSchema && Entries.contains key body.own)

def Body.layer (body : Body) : Layer Schema where
  id := body.id
  fields := if body.isSchema then [] else body.own
  options := match body.settings with
    | some (.given order) => some order
    | _ => none

structure Class where
  /-- The class as others see it. -/
  outline : Schema
  body : Body
  /-- All other classes that this one inherits from, the nearest first. -/
  ancestors : List Body

namespace Class

def name (cls : Class) : String :=
  cls.outline.name

def schema? (cls : Class) : Option Schema :=
  if cls.outline.isMixin then none else some cls.outline

def order (cls : Class) : List Body :=
  cls.body :: cls.ancestors

/-- The settings of the nearest class that has any of its own. -/
def nearestSettings? (order : List Body) : Option Settings :=
  order.findSome? Body.settings

def settings? (cls : Class) : Option Settings :=
  nearestSettings? cls.order

/-- Whether another value is found under the key before what the base schema has there. -/
def isHidden (order : List Body) (key : String) : Bool :=
  (order.takeWhile fun body => body.id ≠ Schema.base.id).any (·.holds key)
    || order.any fun body => body.id = Schema.base.id && body.holds key

def hiddenOperations (order : List Body) : List Operation :=
  Operation.all.filter fun operation => isHidden order operation.key

def base : Class where
  outline := Schema.base
  body := { id := Schema.base.id, isSchema := true, own := [], handedDown := [],
            settings := some (.given [(Schema.base.id, {})]) }
  ancestors := []

inductive Fault where
  /-- A name with the null character in it. -/
  | nameNotAllowed
  | inconsistentBases
  /-- A field of a mixin has a key that has a meaning of its own in classes. -/
  | reservedKey
  /-- A class that is no mixin descends from no schema. -/
  | noSchemaAmongBases
  /-- A mixin has a field where the declared fields of schemas are looked for. -/
  | hiddenFields
  /-- A field of a mixin stands in the way of making the settings. -/
  | hiddenSettings
  /-- The naming style has no name for an empty key. -/
  | emptyKey
  | field (fault : Field.Fault)
  | nameNoText
  | sameName (first second className name : String)
  /-- What is given for the subtypes cannot be listed. -/
  | subtypesNotListed
  /-- What is listed as the subtypes are no pairs. -/
  | subtypesNotPaired
  | typePropertyTaken (typeProperty className : String)
  | typePropertyUnusable
  | subtypeNotAllowed (name : String)
  | subtypeNoText
  deriving DecidableEq, Repr

def Fault.message? : Fault → Option String
  | nameNotAllowed | inconsistentBases | reservedKey | noSchemaAmongBases | hiddenFields | hiddenSettings
  | emptyKey | nameNoText | subtypesNotListed | subtypesNotPaired | typePropertyUnusable | subtypeNoText => none
  | field fault => fault.message?
  | sameName first second className name =>
    some ("Fields '" ++ first ++ "' and '" ++ second ++ "' of " ++ className
      ++ " have the same name '" ++ name ++ "'.")
  | typePropertyTaken typeProperty className =>
    some ("Type property '" ++ typeProperty ++ "' of " ++ className ++ " clashes with a declared field.")
  | subtypeNotAllowed name => some ("Subtype name '" ++ name ++ "' is not allowed.")

/-- The declared fields so far, and the key that each name was first given to. -/
structure Declared where
  fields : Entries (Field Schema) := []
  names : Entries String := []

/-- Completes a field under its key. A field without a name is named by the style. -/
def complete (style : Text.NamingStyle) (key : String) (field : Field Schema) :
    Except Fault (Field Schema) := do
  let name ← if field.name = "" then (style.name? key).elim (.error .emptyKey) .ok else .ok field.name
  (Field.checkName name).mapError .field
  return { field with key, name, mappedKey := if field.mappedKey = "" then key else field.mappedKey }

/-- Declares a field, in the place of an earlier one of the same key. A name belongs to the first
key that has it. -/
def Declared.add (className : String) (style : Text.NamingStyle) (declared : Declared)
    (entry : String × Field Schema) : Except Fault Declared := do
  let field ← complete style entry.1 entry.2
  match Entries.find? field.name declared.names with
  | some first =>
    if first ≠ entry.1 then .error (.sameName first entry.1 className field.name)
    else return { declared with fields := Entries.put entry.1 field declared.fields }
  | none =>
    return { fields := Entries.put entry.1 field declared.fields
             names := Entries.put field.name entry.1 declared.names }

/-- The fields of the ancestors, the farthest first. -/
def inherited (ancestors : List Body) : List (String × Field Schema) :=
  ancestors.reverse.flatMap Body.handedDown

def declare (className : String) (style : Text.NamingStyle) (fields : List (String × Field Schema)) :
    Except Fault Declared :=
  fields.foldlM (Declared.add className style) {}

/-- The subtypes by what is given as their names. -/
def listSubtypes : Option (Subtypes Schema) → Except Fault (Entries (Reference Schema) (Option String))
  | none => .ok []
  | some (.listed entries) => .ok (Entries.ofList entries)
  | some .noList => .error .subtypesNotListed
  | some .noPairs => .error .subtypesNotPaired

def checkSubtype (subtype : Option String × Reference Schema) : Except Fault (String × Reference Schema) :=
  match subtype.1 with
  | none => .error .subtypeNoText
  | some name => if MemberName.allowed name then .ok (name, subtype.2) else .error (.subtypeNotAllowed name)

/-- Checks the names of the subtypes, and before them that of the type property if there are any. -/
def checkSubtypes (className : String) (typeProperty : Label)
    (subtypes : Entries (Reference Schema) (Option String)) (names : Entries String) :
    Except Fault (Entries (Reference Schema)) := do
  if subtypes.isEmpty then return []
  match typeProperty with
  | .text name => if Entries.contains name names then .error (.typePropertyTaken name className)
  | .other => pure ()
  | .unusable => .error .typePropertyUnusable
  subtypes.mapM checkSubtype

structure Definition where
  name : String
  bases : List Class
  isMixin : Bool
  fields : List (String × Field Schema)
  options : Option (Options Schema)
  /-- The settings that the own ones extend. -/
  extended : OptionsOrder Schema := []

namespace Definition

def settingsKey := "Options"

/-- The fields by their keys. A field of the key of the settings gives way to settings. -/
def own (definition : Definition) (id : Nat) : Entries (Field Schema) :=
  let fields := Entries.ofList <| definition.fields.map fun (key, field) =>
    (key, { field with origin := some ⟨id, key⟩ })
  if definition.options.isSome then Entries.erase settingsKey fields else fields

/-- The settings of the class body, with those that they extend. -/
def ownOptions (definition : Definition) (id : Nat) : Option (OptionsOrder Schema) :=
  definition.options.map fun options => (id, options) :: definition.extended

/-- The record type is the one thing that is never taken from an ancestor's settings. -/
def recordType (definition : Definition) : String :=
  match (definition.ownOptions 0).map OptionsOrder.effective with
  | some { recordType := some (some given), .. } => if given = "" then definition.name else given
  | _ => definition.name

/-- The key that every ancestor is asked for first when fields are collected. -/
def declaredKey := "_declared_fields"

def settingsMakerKey := "OPTIONS_CLASS"

/-- Keys that no field of a mixin may have. -/
def unusableKeys : List String :=
  ["__slots__", "__qualname__", "__classcell__"]

/-- The key of what is done whenever a class descends from another one. -/
def descendingKey := "__init_subclass__"

/-- The key of what a schema takes over from each of its bases. -/
def unfinishedKey := "__abstractmethods__"

/-- Refuses values of mixins under keys that have a meaning of their own. The fields of a class that
is to be a schema do not become values of it. -/
def checkKeys (definition : Definition) (own : Entries (Field Schema)) (ancestors : List Body) :
    Except Fault Unit := do
  let keepsFields := definition.isMixin && !ancestors.any Body.isSchema
  if keepsFields && unusableKeys.any fun key => Entries.contains key own then .error .reservedKey
  if ancestors.any (·.holds descendingKey) then .error .reservedKey
  if !keepsFields && definition.bases.any fun base => base.body.holds unfinishedKey then .error .reservedKey

/-- Refuses mixins with a field that keeps a schema from being made. -/
def checkHidden (ancestors : List Body) : Except Fault Unit := do
  if ancestors.any (·.holds declaredKey) then .error .hiddenFields
  if isHidden ancestors settingsMakerKey then .error .hiddenSettings

/-- The settings that a schema of the definition is made with. -/
def settings? (definition : Definition) (id : Nat) (ancestors : List Body) : Option Settings :=
  (definition.ownOptions id).map .given <|> nearestSettings? ancestors

def schema (definition : Definition) (id : Nat) (ancestors : List Body) :
    Except Fault (Schema × Declared) := do
  checkHidden ancestors
  let options := ((definition.settings? id ancestors).map Settings.options).getD {}
  let subtypes ← listSubtypes options.subtypes
  let style := options.naming.elim .lowerCamel Naming.toStyle
  if ancestors.any Body.isMisnamed then .error .nameNoText
  let own := definition.own id
  let declared ← declare definition.name style (inherited ancestors ++ own)
  let typeProperty := options.typeProperty.getD (.text "type")
  let subtypes ← checkSubtypes definition.name typeProperty subtypes declared.names
  let schema : Schema :=
    { id, name := definition.name, recordType := definition.recordType, typeProperty := typeProperty.name
      subtypes, fields := Entries.values declared.fields, naming := options.naming
      lineage := { id, options := definition.ownOptions id } :: ancestors.map Body.layer
      hidden := hiddenOperations ancestors }
  return (schema, declared)

/-- What is seen of a class that is no schema. -/
def mixin (definition : Definition) (order : List Body) : Schema where
  id := (order.head?.map Body.id).getD 0
  name := definition.name
  recordType := ""
  typeProperty := ""
  subtypes := []
  fields := []
  lineage := order.map Body.layer
  hidden := hiddenOperations order
  isMixin := true

/-- Why a class without a schema among its ancestors cannot be one. What makes the settings is only
looked for if there are any. -/
def noSchemaFault (definition : Definition) (id : Nat) (ancestors : List Body) : Fault :=
  match checkHidden ancestors, definition.settings? id ancestors with
  | .error fault, some _ => fault
  | _, _ => .noSchemaAmongBases

end Definition

def define (id : Nat) (definition : Definition) : Except Fault Class := do
  if definition.name.toList.contains (Char.ofNat 0) then .error .nameNotAllowed
  let some ancestors :=
      Linearization.ofBases? Body.id (definition.bases.map order) (definition.bases.map Class.body)
    | .error .inconsistentBases
  let own := definition.own id
  definition.checkKeys own ancestors
  let settings := (definition.ownOptions id).map Settings.given
  if ancestors.any Body.isSchema then
    let (schema, declared) ← definition.schema id ancestors
    return { outline := schema, ancestors
             body := { id, isSchema := true, own, handedDown := declared.fields, settings } }
  else if definition.isMixin then
    let standIn := if Entries.contains Definition.settingsKey own then some (Settings.value {}) else none
    let body : Body := { id, isSchema := false, own, handedDown := own, settings := settings <|> standIn }
    return { outline := definition.mixin (body :: ancestors), ancestors, body }
  else .error (definition.noSchemaFault id ancestors)

end Class
end RecordAddress
