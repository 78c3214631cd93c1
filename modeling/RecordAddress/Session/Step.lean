import RecordAddress.Session.Given

/-! The steps of a session and their answers. -/

namespace RecordAddress.Session

inductive PointerSource where
  /-- A text that is parsed against the root class. -/
  | text (text : String)
  | variable (name : String)

inductive TypeSource where
  | root
  | label (label : String)
  /-- The container of the class with the label. -/
  | container (label : String)
  | name (name : String)
  | value (value : Given)

inductive RegistryChoice where
  | shared
  | spare

inductive Step where
  | parse (type : TypeSource) (pointer : Given) (dashAllowed byClass : Bool) (keep : Option String)
  | child (parent : PointerSource) (token : Value) (dashAllowed : Bool) (keep : Option String)
  | divide (parent : PointerSource) (token : Value) (keep : Option String)
  | chain (pointer : PointerSource)
  | compare (first second : PointerSource)
  | location (pointer : PointerSource) (resolved : Bool)
  | get (pointer : PointerSource)
  | trace (pointer : PointerSource)
  | add (pointer : PointerSource) (value : Given)
  | replace (pointer : PointerSource) (value : Given)
  | remove (pointer : PointerSource)
  | setRecord (value : Given)
  | define (source : ClassSource)
  | describe (label : String)
  | field (label key : String)
  /-- The way goes through nested containers, from the root one or from one made at a given path. -/
  | container (label : String) (path : Option String) (way : List Segment) (asked : Option (List String))
  | bind (label property : String) (path : Option String)
  | register (registry : RegistryChoice) (label : String)
  | registered (registry : RegistryChoice) (key : TypeSource)
  | registeredContainer (registry : RegistryChoice) (key : TypeSource)
  | parseRegistered (registry : RegistryChoice) (key : TypeSource) (pointer : Given) (dashAllowed : Bool)
      (keep : Option String)
  | recordTypes (registry : RegistryChoice) (asked : List String)
  | report (kind : Report.Kind) (source : Report.Source Given)
  | encode (value : Given) (layout : Layout)

inductive Answer where
  | pointer (pointer : PointerSummary)
  | chain (pointers : List Pointer)
  | comparison (first second : Pointer)
  | location (location : Location) (resolved : Option (Option Value))
  | value (value : Value)
  | traced (trace : List (Pointer × Value × Nat)) (outcome : Except Failure Value)
  | edited (prior : Value)
  | recordSet
  | defined (recordType : Value) (fields : List PropertySummary)
  | definedMixin
  | description (schema : SchemaSummary) (container : Except Failure ContainerSummary)
  | field (property : PropertySummary)
  | noContainer
  | container (container : ContainerSummary)
  /-- Names that were asked for come with whether they are properties and whether they are subtypes. -/
  | opened (container : ContainerSummary) (asked : Option (List (String × Bool × Bool)))
  | bound (property : PropertySummary) (nested : Option ContainerSummary)
  | label (label : String)
  /-- Names that were asked for come with whether they are registered. -/
  | recordTypes (types : List Value) (asked : List (String × Bool))
  | report (report : Report)
  | text (text : String)

end RecordAddress.Session
