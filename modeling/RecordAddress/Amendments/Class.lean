import RecordAddress.Amendments.Container

/-! Classes as they are now, with what was changed of them and of the settings and fields that they
hand down. Classes that are defined from them later take the changes over. -/

namespace RecordAddress.Amendments

/-- What a value gives as the subtypes. -/
def subtypesOf (given : Value) : Subtypes Schema :=
  if !given.isTruthy then .listed []
  else match given.pairs with
    | .ok pairs => .listed (pairs.map fun (name, target) => (name.text?, reference target))
    | .error .noCollection => .noList
    | .error .otherSize => .noPairs

def optionsOf (attributes : Entries Value) : Options Schema where
  recordType := (Entries.find? recordTypeKey attributes).map Value.text?
  naming := (Entries.find? namingKey attributes).map fun
    | .text text => .word text
    | _ => .nothing
  typeProperty := (Entries.find? typePropertyKey attributes).map Value.label
  subtypes := (Entries.find? subtypesKey attributes).map subtypesOf

/-- What a value sets that stands in the place of settings. -/
def settingsIn : Value → Settings
  | .object attributes | .location _ attributes => .value (optionsOf attributes)
  | _ => .value {}

variable (amendments : Amendments)

def settings : Settings → Settings
  | .given order => .given <| order.map fun (definer, options) =>
      (definer, (optionsOf (amendments.on (.options definer))).over options)
  | other => other

/-- A field as a class holds it under a key. -/
def field (holder : Origin) (field : Field Schema) : Field Schema :=
  let property : Property := { field, place := some { ground := .field holder } }
  { field with
    name := (amendments.name property).text?.getD ""
    mappedKey := (amendments.mappedKey property).text?.getD "" }

/-- Whether a field that a class holds under a key was given something else than text as its name. -/
def isMisnamed (holder : Origin) (field : Field Schema) : Bool :=
  let name := amendments.name { field, place := some { ground := .field holder } }
  name.isTruthy && name.text?.isNone

/-- A field of a mixin that another value was put in the place of is none any more, and so are all
declared fields if there is another mapping in their place. -/
def body (body : Body) : Body :=
  let attributes := amendments.on (.classOf body.id)
  let amend (fields : Entries (Field Schema)) : Entries (Field Schema) :=
    fields.map fun (key, field) => (key, amendments.field ⟨body.id, key⟩ field)
  let kept (fields : Entries (Field Schema)) : Entries (Field Schema) :=
    if body.isSchema then fields else fields.filter fun entry => !Entries.contains entry.1 attributes
  let isMisnamed := (kept body.handedDown).any fun (key, field) => amendments.isMisnamed ⟨body.id, key⟩ field
  let isRedeclared := (Entries.find? declaredKey attributes).any Value.isMapping
  { body with
    own := amend (kept body.own)
    handedDown := if isRedeclared then [] else amend (kept body.handedDown)
    settings := (Entries.find? Class.Definition.settingsKey attributes).map settingsIn
      <|> body.settings.map amendments.settings
    isMisnamed := !isRedeclared && isMisnamed
    overwritten := (Entries.keys attributes).filter fun key => !(isRedeclared && key = declaredKey) }

def classOf (cls : Class) : Class :=
  if amendments.isEmpty then cls
  else { cls with body := amendments.body cls.body, ancestors := cls.ancestors.map amendments.body }

/-! What a new class takes over besides what its definition says of it. -/

/-- What a class is given as its settings: those of a class, or another value. -/
inductive Given where
  | order (order : List (Nat × Options Schema))
  | value (value : Value)

/-- The settings that are found first among the classes that a class descends from. -/
def givenTo (target : Schema) : Option Given :=
  target.lineage.findSome? fun layer =>
    (amendments.set? (.classOf layer.id) Class.Definition.settingsKey).map .value
      <|> (Entries.find? Class.Definition.settingsKey layer.fields).map (fun _ => .value .null)
      <|> layer.options.map .order

/-- A setting that was changed before the class was defined. -/
def changedSetting (given : Given) (key : String) : Option Value :=
  match given with
  | .value value => (value.givenAttribute key).toOption
  | .order order => (order.findSome? fun (definer, options) =>
      (amendments.set? (.options definer) key).map some
        <|> (amendments.ofOptions options key).map fun _ => none).join

/-- The changed subtypes, as a mapping of their own. -/
def mapped (subtypes : Value) : Value :=
  let pairs := if subtypes.isTruthy then subtypes.pairs.toOption.getD [] else []
  .view (Entries.ofList (pairs.filterMap fun (name, target) => name.text?.map fun name => (name, target)))

/-- The settings of a new class as far as they were changed. The record type is only taken from settings
of its own, and nothing untrue is one. -/
def changedSettings (target : Schema) : Entries Value :=
  match amendments.givenTo target with
  | none => []
  | some given =>
    let ownRecordType :=
      if (target.lineage.head?.bind Layer.options).isSome then
        (amendments.changedSetting given recordTypeKey).filter Value.isTruthy
      else none
    [(recordTypeKey, ownRecordType), (namingKey, amendments.changedSetting given namingKey),
      (typePropertyKey, amendments.changedSetting given typePropertyKey),
      (subtypesKey, (amendments.changedSetting given subtypesKey).map mapped)].filterMap fun (key, value) =>
      value.map fun value => (key, value)

/-- The attributes that a declared field takes over from the field that it is a copy of. -/
def copied (attributes : Entries Value) : Entries Value :=
  attributes.filter fun (key, value) =>
    key ≠ keyKey && key ≠ nameKey && (key ≠ mappedKeyKey || value.isTruthy)

/-- The class that hands down a field which a class does not have of its own. -/
def source? (cls : Class) (key : String) : Option Origin :=
  if Entries.contains key cls.body.own then none
  else (cls.ancestors.find? fun body => Entries.contains key body.handedDown).map fun body => ⟨body.id, key⟩

/-- Takes note of what a new class took over. -/
def withClass (cls : Class) : Amendments :=
  if amendments.isEmpty || cls.outline.isMixin then amendments
  else
    let settings := amendments.changedSettings cls.outline
    let noted := if settings.isEmpty then amendments else amendments.put (.settings cls.outline.id) settings
    cls.outline.fields.foldl (fun noted field =>
      let attributes := copied (((source? cls field.key).map (amendments.on ∘ Origin.subject)).getD [])
      if attributes.isEmpty then noted
      else noted.put (Origin.subject ⟨cls.outline.id, field.key⟩) attributes) noted

end RecordAddress.Amendments
