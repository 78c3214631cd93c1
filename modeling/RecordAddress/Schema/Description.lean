import RecordAddress.Schema.Container

/-! What describes a record type can itself be met inside a record, where a pointer shows it. All that
is met of one subject is the same object, so that a change made to it is seen wherever it is met. -/

namespace RecordAddress

inductive Description where
  | property (property : Property)
  | container (container : Container)
  | schema (schema : Schema)
  /-- What a schema was made with. -/
  | settings (schema : Schema)
  /-- The settings as a class gives them, with those that they extend. -/
  | options (order : List (Nat × Options Schema))
  /-- What makes the settings of all schemas. -/
  | settingsMaker
  | style (style : Text.NamingStyle)
  /-- The style of a schema that was given none. -/
  | defaultStyle (schema : Schema)
  | valueType (type : ValueType)
  | collection (kind : Collection)
  /-- An operation of something else, of which nothing can be read. -/
  | operation

inductive Subject where
  | property (place : Place)
  | container (place : Place)
  | classOf (id : Nat)
  | settings (id : Nat)
  | options (id : Nat)
  | settingsMaker
  | style (title : String)
  | defaultStyle (id : Nat)
  | valueType (type : ValueType)
  | collection (kind : Collection)
  deriving DecidableEq, Repr

/-- Properties and containers that stand nowhere are met only once. -/
def Description.subject? : Description → Option Subject
  | .property target => target.place.map .property
  | .container target => target.place.map .container
  | .schema target => some (.classOf target.id)
  | .settings target => some (.settings target.id)
  | .options order => order.head?.map fun own => .options own.1
  | .settingsMaker => some .settingsMaker
  | .style target => some (.style target.title)
  | .defaultStyle target => some (.defaultStyle target.id)
  | .valueType target => some (.valueType target)
  | .collection target => some (.collection target)
  | .operation => none

/-- The field that the class holds under a key, on its own. -/
def Origin.subject (holder : Origin) : Subject :=
  .property { ground := .field holder }

end RecordAddress
