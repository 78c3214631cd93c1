import RecordAddress.Amendments.Class
import RecordAddress.Report
import RecordAddress.Session.Source
import RecordAddress.Session.Summary

/-! Sessions: classes defined one after another, a record, and pointers kept by name. All that a
step of a session leaves behind is in its state; a step that fails leaves no more than the
containers that it opened and the events that it reported. Definitions go to the registry of the
context, and nested record types are found in it. -/

namespace RecordAddress

structure Session where
  /-- The label of the class that pointer texts are parsed against. -/
  rootLabel : String
  labels : Session.Labels := [(Schema.base.name, Class.base)]
  nextId : Nat := Schema.base.id + 1
  context : Context := {}
  /-- A registry that only holds what is put into it. -/
  spare : Registry := {}
  pointers : Entries Pointer := []
  record : Value := .null
  events : List Event := []

namespace Session

inductive Failure where
  /-- A label or a pointer name that nothing was stored under. -/
  | undefined
  /-- A way through containers that goes on below a scalar. -/
  | noContainer
  | invalidPointer (malformed : Malformed)
  | tooManyDigits
  | misuse (pointer : Pointer) (misuse : Pointer.Misuse)
  | data (fault : Pointer.DataFault)
  | broken (breakdown : Value.Breakdown)
  /-- The key is not told if it cannot be written. -/
  | missingKey (key : Option String)
  | definition (fault : DefinitionFault)
  | container (fault : Container.Fault)
  /-- Something was asked of a value or class that it does not offer. -/
  | notOffered
  /-- A value stands where an operation is looked for. -/
  | hidden
  /-- A schema that all labels have been taken from. -/
  | unlabelled
  | unhashableKey
  | notRecordType (written : String)
  | location (fault : Token.Fault)
  | unserializable (kind : Value.Unserializable)
  | report (fault : Report.Fault)

/-- What an operation of values breaks down with is told like what containers fail with. -/
def Failure.ofBreakdown : Value.Breakdown → Failure
  | .container fault => container fault
  | .noEntry key => missingKey (some key)
  | breakdown => broken breakdown

def Failure.ofPointer : Pointer.Fault → Failure
  | .malformed malformed => invalidPointer malformed
  | .container fault => container fault
  | .tooManyDigits => tooManyDigits
  | .unopened => notOffered
  | .broken breakdown => ofBreakdown breakdown

def Failure.ofAccess (pointer : Pointer) : Pointer.AccessFault → Failure
  | .misuse fault => misuse pointer fault
  | .data fault => data fault
  | .broken breakdown => ofBreakdown breakdown

def Failure.ofDefinition : DefinitionFault → Failure
  | .undefinedLabel => undefined
  | .noOptions => notOffered
  | .valueAsOptions => hidden
  | fault => definition fault

def Failure.ofReport : Report.Fault → Failure
  | .tooManyDigits => tooManyDigits
  | .unfitting => report .unfitting

def Failure.ofEncoding : Value.Unserializable → Failure
  | .number => tooManyDigits
  | kind => unserializable kind

def Failure.message? : Failure → Option String
  | broken (.field fault) => fault.message?
  | undefined | noContainer | broken _ | tooManyDigits | notOffered | hidden | unlabelled | unhashableKey
  | report _ => none
  | invalidPointer malformed => some malformed.message
  | misuse _ fault => some fault.message
  | data fault => some fault.message
  | missingKey key => key
  | definition .undefinedLabel | definition .noOptions | definition .valueAsOptions => none
  | definition (.field fault) => fault.message?
  | definition (.definition fault) => fault.message?
  | container (.unregistered recordType) => some recordType
  | container .notOffered | container .hidden | container .noName => none
  | container (.field fault) => fault.message?
  | notRecordType written => some (written ++ " is not a record type.")
  | location fault => some fault.message
  | unserializable kind => kind.message?

abbrev Action := ExceptT Failure (StateM Session)

def report (event : Event) : Action Unit :=
  modify fun session => { session with events := session.events ++ [event] }

def remember (opened : List Container) : Action Unit := do
  modify fun session =>
    let context := session.context
    { session with context := { context with memory := context.memory.rememberAll opened } }

/-- Runs an opening. What it opened is remembered whatever comes out of it. -/
def opening {ε α : Type} (failure : ε → Failure) (run : Context → Opening ε α) : Action α := do
  let result := run (← get).context
  remember result.opened
  match result.outcome with
  | .ok value => return value
  | .error fault => throw (failure fault)

def raise {ε α : Type} (failure : ε → Failure) : Except ε α → Action α
  | .ok value => return value
  | .error fault => throw (failure fault)

/-- What comes of an action, its failure included. -/
def attempt {α : Type} (action : Action α) : Action (Except Failure α) :=
  try return .ok (← action) catch failure => return .error failure

def find {α : Type} (failure : Failure) : Option α → Action α
  | some value => return value
  | none => throw failure

/-- The class of a label, as it is now. -/
def labelled (label : String) : Action Class := do
  let session ← get
  let cls ← find .undefined (Entries.find? label session.labels)
  return session.context.amendments.classOf cls

def amended : Action Amendments := do
  return (← get).context.amendments

/-- What a reading of values gives, or the failure that it breaks down with. -/
def settle {α : Type} (read : Amendments → Except Value.Breakdown α) : Action α := do
  raise .ofBreakdown (read (← amended))

def schemaLabelled (label : String) : Action Schema := do
  find .notOffered (← labelled label).schema?

/-- The schema of a class that is asked for an operation. -/
def offering (operation : Operation) (cls : Class) : Action Schema := do
  if (← amended).hides cls.outline operation then throw .hidden
  find .notOffered cls.schema?

def labelOf (schema : Schema) : Action String := do
  let labels := (← get).labels.filterMap fun entry =>
    if entry.2.body.id = schema.id then some entry.1 else none
  find .unlabelled <| labels.foldl (fun smallest label =>
    some (smallest.elim label fun other => if label < other then label else other)) none

def rootContainer (schema : Schema) : Action Container :=
  opening .container fun context => context.rootOpening schema

def classContainer (cls : Class) : Action Container := do
  match cls.schema? with
  | some schema => rootContainer schema
  | none =>
    let amendments ← amended
    throw (if amendments.hides cls.outline .rootContainer then .hidden
      else .notRecordType (amendments.writtenClass cls.outline))

def parseAt (container : Container) (dashAllowed : Bool) (pointer : Value) : Action Pointer := do
  let parsed ← opening .ofPointer fun context => Pointer.parse context container dashAllowed pointer
  report (.parsed (← find .tooManyDigits pointer.display?) (← settle (·.written container)))
  return parsed

def parseAtRoot (text : String) : Action Pointer := do
  let container ← classContainer (← labelled (← get).rootLabel)
  parseAt container true (.text text)

/-- Registers a class and warns if it takes over a record type. -/
def registered (registry : Registry) (target : Schema) : Action Registry := do
  let amendments ← amended
  let recordType ← settle (·.setting target Amendments.recordTypeKey)
  if !recordType.isHashable then throw .unhashableKey
  if let some former := registry.holder? recordType target then
    let name ← find .tooManyDigits recordType.display?
    report (.redefined name (amendments.className former) (amendments.className target))
  return registry.insert recordType target

def register (target : Schema) : Action Unit := do
  let registry ← registered (← get).context.registry target
  modify fun session => { session with context := { session.context with registry } }

def registerSpare (target : Schema) : Action Unit := do
  let spare ← registered (← get).spare target
  modify fun session => { session with spare }

/-- Defines a class, registers it if it is a schema, and stores it under its label. -/
def define (source : ClassSource) : Action Class := do
  let session ← get
  let labels := session.labels.map fun (label, cls) => (label, session.context.amendments.classOf cls)
  let cls ← raise .ofDefinition (source.define labels session.nextId)
  modify fun session =>
    let context := session.context
    { session with nextId := session.nextId + 1
                   context := { context with amendments := context.amendments.withClass cls } }
  if let some schema := cls.schema? then register schema
  modify fun session => { session with labels := Entries.put source.label cls session.labels }
  return cls

end Session
end RecordAddress
