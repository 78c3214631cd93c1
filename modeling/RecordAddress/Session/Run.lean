import RecordAddress.Location.Resolution
import RecordAddress.Session.Step

/-! What the steps of a session do. Everything that a step refers to is looked up, from the left,
before the step itself is taken. -/

namespace RecordAddress.Session

inductive Target where
  | ofClass (cls : Class)
  | ofContainer (container : Container)
  | ofValue (value : Value)

def PointerSource.pointer : PointerSource → Action Pointer
  | .text path => parseAtRoot path
  | .variable name => do find .undefined (Entries.find? name (← get).pointers)

def TypeSource.target : TypeSource → Action Target
  | .root => do return .ofClass (← labelled (← get).rootLabel)
  | .label given => do return .ofClass (← labelled given)
  | .container given => do return .ofContainer (← rootContainer (← offering .rootContainer (← labelled given)))
  | .name recordType => return .ofValue (.text recordType)
  | .value given => do return .ofValue (← given.acceptBare)

def RegistryChoice.registry (choice : RegistryChoice) : Action Registry := do
  let session ← get
  return match choice with
    | .shared => session.context.registry
    | .spare => session.spare

/-- Whether something is found where the operation is looked for. -/
def Target.shows (operation : Operation) : Target → Action Bool
  | ofClass cls => do return cls.schema?.isSome || (← amended).hides cls.outline operation
  | ofValue (.object attributes) => return Entries.contains operation.key attributes
  | _ => return false

def entryOf (registry : Registry) (key : Value) : Action Schema := do
  if !key.isHashable then throw .unhashableKey
  find (.missingKey key.display?) (registry.find? key)

/-- The container of a record type that is given as a class, a container or a name. -/
def Target.toContainer : Target → Action Container
  | ofClass cls => classContainer cls
  | ofContainer container => return container
  | ofValue (.text name) => do
    rootContainer (← entryOf (← get).context.registry (.text name))
  | target@(ofValue value) => do
    if ← target.shows .rootContainer then throw .hidden
    throw (.notRecordType (← find .tooManyDigits value.written?))

/-- The container of a record type that is asked to parse a pointer itself. Only schemas can do that,
whatever else is found where the operation is looked for. -/
def Target.ownContainer : Target → Action Container
  | ofClass cls => do rootContainer (← offering .parse cls)
  | _ => throw .hidden

/-- Looks a key up. A class stands for its record type, and any value may be asked for. -/
def Target.schemaIn (registry : Registry) : Target → Action Schema
  | ofClass cls => do entryOf registry (← settle (·.setting cls.outline Amendments.recordTypeKey))
  | ofContainer container => do throw (.missingKey (some (← settle (·.written container))))
  | ofValue value => entryOf registry value

def summarized (container : Container) : Action ContainerSummary :=
  settle fun amendments => ContainerSummary.of amendments true container

def keptAs (keep : Option String) (pointer : Pointer) : Action Answer := do
  if let some name := keep then
    modify fun session => { session with pointers := Entries.put name pointer session.pointers }
  return .pointer (← settle fun amendments => PointerSummary.of amendments pointer)

def stepInto (container : Option Container) (segment : Segment) : Action (Option Container) := do
  let container ← find .noContainer container
  let property ← settle fun amendments =>
    match segment with
    | .property name => amendments.property container name
    | .subtype name => amendments.subtype container name
  opening .container fun context => context.nestedOpening property

def summaries (schema : Schema) : Action (List PropertySummary) :=
  settle fun amendments => schema.fields.mapM fun field =>
    PropertySummary.of amendments (Amendments.declaration schema field)

def told (container : Container) (names : List String) : Action (List (String × Bool × Bool)) :=
  settle fun amendments => names.mapM fun name => do
    let isProperty ← amendments.hasProperty container name
    if (amendments.isPolymorphic container).isTruthy then
      return (name, isProperty, ← amendments.hasSubtype container name)
    return (name, isProperty, false)

def childOf (keep : Option String) (extend : Context → Opening Pointer.Fault Pointer) : Action Answer := do
  keptAs keep (← opening .ofPointer extend)

/-- Reads the record through a pointer. Containers that are met stay open, also if reading fails. -/
def reading {α : Type} (pointer : Pointer) (read : Context → Value → α) : Action α := do
  let session ← get
  remember (pointer.opened session.context session.record)
  return read session.context session.record

def runEdit (pointer : Pointer) (change : Edit) : Action Answer := do
  if let some misuse := pointer.misuse? (← amended) change then throw (.misuse pointer misuse)
  let (record, outcome) ← reading pointer fun context => pointer.edit context change
  let amendments ← reading pointer fun context => pointer.amend context change
  modify fun session => { session with record }
  let prior ← raise (.ofAccess pointer) outcome
  modify fun session => { session with context := { session.context with amendments } }
  report (pointer.edited change)
  return .edited prior

def acceptSource (source : Report.Source Given) : Action (Report.Source Value) := do
  let detail ← source.detail.mapM Given.accept
  let extra ← source.extra.mapM Given.accept
  let pointer ← source.pointer.mapM Given.accept
  let reason ← source.reason.mapM Given.accept
  return { detail, pointer, extra, reason }

def run : Step → Action Answer
  | .parse type pointer dashAllowed byClass keep => do
    let target ← type.target
    if byClass && !(← target.shows .parse) then throw .notOffered
    let pointer ← pointer.acceptBare
    let container ← if byClass then target.ownContainer else target.toContainer
    keptAs keep (← parseAt container dashAllowed pointer)
  | .child parent token dashAllowed keep => do
    let parent ← parent.pointer
    match token with
    | .text token => childOf keep fun context => parent.child context dashAllowed token
    | _ => throw .notOffered
  | .divide parent token keep => do
    let parent ← parent.pointer
    childOf keep fun context => parent.divide context token
  | .chain pointer => return .chain (← pointer.pointer).chain
  | .compare first second => do
    let first ← first.pointer
    let second ← second.pointer
    return .comparison first second
  | .location pointer resolved => do
    let pointer ← pointer.pointer
    let location ← raise .location pointer.location
    let record := (← get).record
    return .location location (if resolved then some (location.resolve record) else none)
  | .get pointer => do
    let pointer ← pointer.pointer
    let outcome ← reading pointer fun context => pointer.get context
    return .value (← raise (.ofAccess pointer) outcome)
  | .trace pointer => do
    let pointer ← pointer.pointer
    let trace ← reading pointer fun context => pointer.trace context
    let outcome ← reading pointer fun context => pointer.get context
    return .traced trace (outcome.mapError (.ofAccess pointer))
  | .add pointer value => do
    let pointer ← pointer.pointer
    runEdit pointer (.add (← value.accept))
  | .replace pointer value => do
    let pointer ← pointer.pointer
    runEdit pointer (.replace (← value.accept))
  | .remove pointer => do runEdit (← pointer.pointer) .remove
  | .setRecord value => do
    let record ← value.accept
    modify fun session => { session with record }
    return .recordSet
  | .define source => do
    let cls ← define source
    match cls.schema?, source.isMixin with
    | some schema, false =>
      return .defined (← settle (·.setting schema Amendments.recordTypeKey)) (← summaries schema)
    | _, _ => return .definedMixin
  | .describe label => do
    let target := (← labelled label).outline
    let summary ← settle fun amendments => SchemaSummary.of amendments target
    return .description summary (← attempt (do summarized (← rootContainer target)))
  | .field label key => do
    let schema ← offering .field (← labelled label)
    return .field (← settle fun amendments => do
      PropertySummary.of amendments (← amendments.declaredField schema key))
  | .container label path way asked => do
    let cls ← labelled label
    let start ← match path with
      | none => do rootContainer (← offering .rootContainer cls)
      | some path => do
        let schema ← offering .container cls
        raise .container ((← amended).opening schema path none)
    match ← way.foldlM stepInto (some start) with
    | none => return .noContainer
    | some container =>
      let summary ← summarized container
      return .opened summary (← asked.mapM (told container))
  | .bind label name path => do
    let container ← rootContainer (← offering .rootContainer (← labelled label))
    let property ← settle (·.property container name)
    if ((← amended).find? property Amendments.bindingKey).isSome then throw .hidden
    let (copy, amendments) := (← amended).copyOf property container path
    let context := { (← get).context with amendments }
    let summary ← raise .ofBreakdown (PropertySummary.of amendments copy)
    let nested ← raise .container (context.nested copy)
    return .bound summary (← nested.mapM fun container =>
      raise .ofBreakdown (ContainerSummary.of amendments true container))
  | .register choice label => do
    let target := (← labelled label).outline
    match choice with
    | .shared => register target
    | .spare => registerSpare target
    return .label (← labelOf target)
  | .registered choice key => do
    let key ← key.target
    let schema ← key.schemaIn (← choice.registry)
    return .label (← labelOf schema)
  | .registeredContainer choice key => do
    let key ← key.target
    let schema ← key.schemaIn (← choice.registry)
    return .container (← summarized (← rootContainer schema))
  | .parseRegistered choice key pointer dashAllowed keep => do
    let key ← key.target
    let pointer ← pointer.acceptBare
    let schema ← key.schemaIn (← choice.registry)
    keptAs keep (← parseAt (← rootContainer schema) dashAllowed pointer)
  | .recordTypes choice asked => do
    let registry ← choice.registry
    return .recordTypes registry.recordTypes (asked.map fun name => (name, (registry.find? (.text name)).isSome))
  | .report kind source => do
    return .report (← raise .ofReport (Report.make kind (← acceptSource source)))
  | .encode value layout => do
    return .text (← raise .ofEncoding ((← value.accept).json layout))

/-- What came of a step, and the events that it reported. -/
structure Outcome where
  answer : Except Failure Answer
  events : List Event

/-- Takes an action on its own, with no events of earlier ones. -/
def act {α : Type} (action : Action α) (session : Session) : (Except Failure α × List Event) × Session :=
  let (result, session) := action.run { session with events := [] }
  ((result, session.events), session)

def step (step : Step) (session : Session) : Outcome × Session :=
  let ((answer, events), session) := act (run step) session
  (⟨answer, events⟩, session)

end RecordAddress.Session
