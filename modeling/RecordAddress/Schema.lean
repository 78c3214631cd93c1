import RecordAddress.Schema.Field
import RecordAddress.Schema.Operation
import RecordAddress.Text.NamingStyle

/-! Schemas, the descriptions of record types, and the settings they are made with. -/

namespace RecordAddress

/-- What is given for making names from keys. Keys are their own names unless it is a style. -/
inductive Naming where
  | style (style : Text.NamingStyle)
  | nothing
  | word (text : String)

def Naming.toStyle : Naming → Text.NamingStyle
  | style given => given
  | nothing | word _ => .verbatim

/-- What is given where a name is looked for. -/
inductive Label where
  | text (name : String)
  /-- It is no text, so that it equals no name. -/
  | other
  /-- It cannot even be looked for. -/
  | unusable
  deriving DecidableEq, Repr

/-- A name that is no text is the empty one here. -/
def Label.name : Label → String
  | text name => name
  | other | unusable => ""

/-- What is given for the subtypes. -/
inductive Subtypes (σ : Type) where
  /-- Names that are no texts stand as nothing. -/
  | listed (entries : List (Option String × Reference σ))
  | noList
  /-- A list of other things than pairs. -/
  | noPairs

/-- The settings of a class. One that is absent is inherited. -/
structure Options (σ : Type) where
  /-- A record type may be given as null, which gives none. -/
  recordType : Option (Option String) := none
  naming : Option Naming := none
  typeProperty : Option Label := none
  subtypes : Option (Subtypes σ) := none

def Options.over {σ : Type} (own inherited : Options σ) : Options σ where
  recordType := own.recordType <|> inherited.recordType
  naming := own.naming <|> inherited.naming
  typeProperty := own.typeProperty <|> inherited.typeProperty
  subtypes := own.subtypes <|> inherited.subtypes

/-- The settings of classes that extend each other, each with the number of its class, the last extension
first. -/
abbrev OptionsOrder (σ : Type) := List (Nat × Options σ)

/-- What all settings of an order come to. -/
def OptionsOrder.effective {σ : Type} (order : OptionsOrder σ) : Options σ :=
  order.foldr (fun own inherited => own.2.over inherited) {}

/-- What one class has of its own. The fields of a mixin stay with it, those of a schema do not. -/
structure Layer (σ : Type) where
  id : Nat
  fields : List (String × Field σ) := []
  options : Option (List (Nat × Options σ)) := none

/-- A class as others see it. -/
structure Schema where
  /-- Schemas are told apart by their number. -/
  id : Nat
  name : String
  recordType : String
  /-- The property that tells the subtype of an object. -/
  typeProperty : String
  subtypes : List (String × Reference Schema)
  /-- The declared fields, each with its key and name. -/
  fields : List (Field Schema)
  /-- What was given for making names. The default makes them in lower camel case. -/
  naming : Option Naming := none
  /-- The class itself and all classes that it descends from, the nearest first. -/
  lineage : List (Layer Schema) := []
  /-- The operations that other values stand in the way of. -/
  hidden : List Operation := []
  /-- A mixin is referred to like a schema, but it has nothing to offer. -/
  isMixin : Bool := false

namespace Schema

def isPolymorphic (schema : Schema) : Bool :=
  !schema.subtypes.isEmpty

def field? (schema : Schema) (key : String) : Option (Field Schema) :=
  schema.fields.find? fun field => field.key = key

def base : Schema where
  id := 0
  name := "BaseSchema"
  recordType := "BaseSchema"
  typeProperty := "type"
  subtypes := []
  fields := []
  lineage := [{ id := 0, options := some [(0, {})] }]

end Schema
end RecordAddress
