import RecordAddress.Amendments
import RecordAddress.Schema.Class

/-! What classes and their settings show as they are now. An attribute of a class is found in the
nearest of the classes that it descends from, and an attribute of settings in the nearest of those that
they extend. -/

namespace RecordAddress.Amendments

def settingsKey := "opts"

def recordTypeKey := "record_type"

def namingKey := "inflect"

def typePropertyKey := "type_property"

def subtypesKey := "subtypes"

def declaredKey := Class.Definition.declaredKey

/-- The key of the name by which a class is told of. -/
def qualifiedNameKey := "__qualname__"

/-- The keys of what classes are called, which is always text. -/
def classNameKeys : List String :=
  ["__name__", qualifiedNameKey]

/-- The key of where a class is at home. -/
def homeKey := "__module__"

variable (amendments : Amendments)

/-- What a reference is as it was given. -/
def referred : Reference Schema → Value
  | .schema target => amendments.shown (.schema target)
  | .named recordType => .text recordType

/-- What is met where the naming is looked for. -/
def naming : Naming → Value
  | .style style => amendments.shown (.style style)
  | .nothing => .null
  | .word text => .text text

/-! Settings. -/

def ofSubtypes : Subtypes Schema → Value
  | .listed entries => .dict <| entries.filterMap fun (name, reference) =>
      name.map fun name => (name, amendments.referred reference)
  | .noList | .noPairs => .null

def ofOptions (options : Options Schema) : String → Option Value
  | "record_type" => options.recordType.map fun given => given.elim .null .text
  | "inflect" => options.naming.map amendments.naming
  | "type_property" => options.typeProperty.map fun label => .text label.name
  | "subtypes" => options.subtypes.map amendments.ofSubtypes
  | _ => none

/-- An attribute of settings, or of those that they extend. -/
def ofOrder (order : List (Nat × Options Schema)) (key : String) : Option Value :=
  order.findSome? fun (definer, options) => amendments.set? (.options definer) key <|> amendments.ofOptions options key

def madeWith (schema : Schema) : String → Option Value
  | "record_type" => some (.text schema.recordType)
  | "type_property" => some (.text schema.typeProperty)
  | "subtypes" => some (.view (schema.subtypes.map fun subtype => (subtype.1, amendments.referred subtype.2)))
  | "inflect" => some (schema.naming.elim (amendments.shown (.defaultStyle schema)) amendments.naming)
  | _ => none

/-! Classes. -/

/-- What one class shows, be it its own or of a class that descends from it. -/
def ofLayer (layer : Layer Schema) (key : String) : Option Value :=
  amendments.set? (.classOf layer.id) key
    <|> (Entries.find? key layer.fields).map (fun field =>
      amendments.shown (.property { field, place := field.origin.map fun origin => { ground := .field origin } }))
    <|> (if key = Class.Definition.settingsKey then layer.options.map (amendments.shown ∘ .options) else none)
    <|> (if layer.id ≠ Schema.base.id then none
      else if key = Class.Definition.settingsMakerKey then some (amendments.shown .settingsMaker)
      else if (Operation.all.map Operation.key).contains key then some (amendments.shown .operation)
      else none)

def className (target : Schema) : String :=
  ((amendments.set? (.classOf target.id) qualifiedNameKey).bind Value.text?).getD target.name

/-- An attribute of a class, found in the nearest of the classes that it descends from. -/
def ofClass? (target : Schema) (key : String) : Option Value :=
  target.lineage.findSome? fun layer => amendments.ofLayer layer key

/-- Where a class is at home, unless another value stands there. -/
def home? (target : Schema) : Option Value :=
  target.lineage.head?.bind (amendments.ofLayer · homeKey)
    <|> if target.id = Schema.base.id then none else some (.text "__main__")

/-- A class as it is written, with its home if that is a text. -/
def writtenClass (target : Schema) : String :=
  let home := ((amendments.home? target).bind Value.text?).elim "" (· ++ ".")
  "<class '" ++ home ++ amendments.className target ++ "'>"

/-- Whether another value stands in the way of an operation of a class. -/
def hides (target : Schema) (operation : Operation) : Bool :=
  let holds (layer : Layer Schema) := Entries.contains operation.key (amendments.on (.classOf layer.id))
  target.hidden.contains operation
    || (target.lineage.takeWhile fun layer => layer.id ≠ Schema.base.id).any holds
    || target.lineage.any fun layer => layer.id = Schema.base.id && holds layer

/-- What stands in the place of the settings of a class. A mixin has none of its own. -/
def standIn (target : Schema) : Except Value.Breakdown (Option Value) :=
  if target.isMixin then (amendments.ofClass? target settingsKey).elim (.error .noObject) (.ok ∘ some)
  else .ok (amendments.set? (.classOf target.id) settingsKey)

def setting (target : Schema) (key : String) : Except Value.Breakdown Value := do
  match ← amendments.standIn target with
  | some given => given.givenAttribute key
  | none =>
    let found := amendments.set? (.settings target.id) key <|> amendments.madeWith target key
    found.elim (.error .noObject) .ok

/-! Containers ask their schemas for settings. -/

def setAt? (container : Container) (key : String) : Option Value :=
  container.place.bind fun place => amendments.set? (.container place) key

/-- A setting of the schema of a container. Another object may stand in the place of the schema. -/
def settingAt (container : Container) (key : String) : Except Value.Breakdown Value := do
  match amendments.setAt? container "schema" with
  | some given => (← given.givenAttribute settingsKey).givenAttribute key
  | none => amendments.setting container.schema key

@[simp] theorem hides_unchanged (target : Schema) (operation : Operation) :
    ({} : Amendments).hides target operation = target.hidden.contains operation := by
  have nothing (layers : List (Layer Schema)) : (layers.any fun _ => false) = false :=
    List.any_eq_false.mpr fun _ _ => Bool.false_ne_true
  simp [hides, Entries.contains, nothing]

@[simp] theorem setAt?_unchanged (container : Container) (key : String) :
    ({} : Amendments).setAt? container key = none := by
  cases seen : container.place <;> simp [setAt?, seen]

@[simp] theorem settingAt_unchanged (container : Container) (key : String) :
    ({} : Amendments).settingAt container key = ({} : Amendments).setting container.schema key := by
  simp [settingAt]

end RecordAddress.Amendments
