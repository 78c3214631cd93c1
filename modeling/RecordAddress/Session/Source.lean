import RecordAddress.Schema.Class

/-! Class definitions as they are given, with labels in the place of classes. Labels are looked up
in the order of the text, so that of several mistakes the first one is found. -/

namespace RecordAddress.Session

inductive ReferenceSource where
  | label (label : String)
  | recordType (name : String)

mutual
inductive FieldSource where
  | scalar (typeName name mappedKey : String)
  | nested (schema : ReferenceSource) (name mappedKey : String)
  | collection (kind : Collection) (item : ItemSource) (name mappedKey : String)
  deriving Inhabited

inductive ItemSource where
  | unspecified
  | reference (target : ReferenceSource)
  | field (field : FieldSource)
  | other
  deriving Inhabited
end

structure OptionsSource where
  recordType : Option (Option String) := none
  naming : Option Naming := none
  typeProperty : Option String := none
  subtypes : Option (List (String × ReferenceSource)) := none
  /-- The label of the class whose settings these ones extend. -/
  extended : Option String := none

structure ClassSource where
  name : String
  label : String
  bases : List String
  isMixin : Bool
  fields : List (String × FieldSource)
  options : Option OptionsSource

inductive DefinitionFault where
  | undefinedLabel
  /-- The class to extend has no settings at all. -/
  | noOptions
  /-- Another value stands in the place of the settings to extend. -/
  | valueAsOptions
  | field (fault : Field.Fault)
  | definition (fault : Class.Fault)
  deriving DecidableEq, Repr

abbrev Labels := Entries Class

def Labels.find (labels : Labels) (label : String) : Except DefinitionFault Class :=
  (Entries.find? label labels).elim (.error .undefinedLabel) .ok

def ReferenceSource.reference (labels : Labels) : ReferenceSource → Except DefinitionFault (Reference Schema)
  | .label name => do
    let cls ← labels.find name
    return .schema cls.outline
  | .recordType name => .ok (.named name)

mutual
def FieldSource.field (labels : Labels) : FieldSource → Except DefinitionFault (Field Schema)
  | .scalar typeName name mappedKey => (Field.scalar typeName name mappedKey).mapError .field
  | .nested schema name mappedKey => do
    let reference ← schema.reference labels
    (Field.nested reference name mappedKey).mapError .field
  | .collection kind item name mappedKey => do
    let item ← item.item labels
    (Field.collection kind item name mappedKey).mapError .field

def ItemSource.item (labels : Labels) : ItemSource → Except DefinitionFault (Field.ItemSource Schema)
  | .unspecified => .ok .unspecified
  | .reference target => (target.reference labels).map .reference
  | .field source => (source.field labels).map .field
  | .other => .ok .other
end

def OptionsSource.options (labels : Labels) (source : OptionsSource) : Except DefinitionFault (Options Schema) := do
  let subtypes ← source.subtypes.mapM fun subtypes => do
    let listed ← subtypes.mapM fun subtype => do
      let reference ← subtype.2.reference labels
      return (some subtype.1, reference)
    return .listed listed
  return { recordType := source.recordType, naming := source.naming
           typeProperty := source.typeProperty.map .text, subtypes }

def Labels.settings (labels : Labels) (label : String) : Except DefinitionFault (OptionsOrder Schema) := do
  let cls ← labels.find label
  match cls.settings? with
  | some (.given order) => return order
  | some (.value _) => .error .valueAsOptions
  | none => .error .noOptions

def ClassSource.define (labels : Labels) (id : Nat) (source : ClassSource) : Except DefinitionFault Class := do
  let bases ← source.bases.mapM labels.find
  let fields ← source.fields.mapM fun entry => do
    let field ← entry.2.field labels
    return (entry.1, field)
  let options ← source.options.mapM (·.options labels)
  let extended ← (source.options.bind OptionsSource.extended).mapM labels.settings
  let definition : Class.Definition :=
    { name := source.name, bases, isMixin := source.isMixin, fields, options, extended := extended.getD [] }
  (Class.define id definition).mapError .definition

end RecordAddress.Session
