import RecordAddress.MemberName

/-! Fields, the declarations of single properties. What a field says of nested objects is a
reference to their schema: the schema itself, or the name of a record type that need not be
registered yet. -/

namespace RecordAddress

inductive Scalar where
  | string
  | number
  | boolean
  | datetime
  deriving DecidableEq, Repr

inductive ValueType where
  | scalar (type : Scalar)
  | object
  deriving DecidableEq, Repr

namespace ValueType

def name : ValueType → String
  | scalar .string => "string"
  | scalar .number => "number"
  | scalar .boolean => "boolean"
  | scalar .datetime => "datetime"
  | object => "object"

def all : List ValueType :=
  [scalar .string, scalar .number, scalar .boolean, scalar .datetime, object]

def ofName? (name : String) : Option ValueType :=
  all.find? fun type => type.name = name

end ValueType

inductive Collection where
  | array
  | map
  deriving DecidableEq, Repr

namespace Collection

def name : Collection → String
  | array => "array"
  | map => "map"

def all : List Collection :=
  [array, map]

end Collection

inductive Reference (σ : Type) where
  | schema (target : σ)
  | named (recordType : String)

inductive Content (σ : Type) where
  | scalar (type : Scalar)
  | nested (reference : Reference σ)

def Content.valueType {σ : Type} : Content σ → ValueType
  | scalar type => .scalar type
  | nested _ => .object

/-- The declaration of the elements of a collection. Its names are never used for access. -/
structure Item (σ : Type) where
  content : Content σ
  name : String := ""
  mappedKey : String := ""

inductive Arrangement (σ : Type) where
  | single (content : Content σ)
  | array (item : Item σ)
  | map (item : Item σ)

/-- Where a field was declared first: the number of the class, and the key in it. -/
structure Origin where
  definer : Nat
  key : String
  deriving DecidableEq, Repr

structure Field (σ : Type) where
  arrangement : Arrangement σ
  /-- The key that declares the field in its schema. -/
  key : String := ""
  /-- The name of the property in mappings and in pointers. -/
  name : String := ""
  /-- The attribute of objects that holds the property. -/
  mappedKey : String := ""
  /-- Fields outside of any class have no origin. -/
  origin : Option Origin := none

namespace Field
variable {σ : Type}

inductive Fault where
  /-- A scalar field of the type of objects. -/
  | objectAttribute
  /-- The name is not told where it is a number of too many digits to be written. -/
  | nameNotAllowed (name : Option String)
  | unknownType
  /-- The elements of a collection are declared by what cannot declare them. -/
  | itemNotAllowed
  deriving DecidableEq, Repr

def Fault.message? : Fault → Option String
  | objectAttribute => some "Use Nested field for object properties."
  | nameNotAllowed name => name.map fun name => "Field name '" ++ name ++ "' is not allowed."
  | unknownType => none
  | itemNotAllowed => some "Collection elements must be an Attribute or a Nested field."

/-- An empty name is no name yet. -/
def checkName (name : String) : Except Fault Unit :=
  if name = "" ∨ MemberName.allowed name then .ok () else .error (.nameNotAllowed name)

def scalar (typeName name mappedKey : String) : Except Fault (Field σ) :=
  match ValueType.ofName? typeName with
  | some .object => .error .objectAttribute
  | some (.scalar type) => do
    checkName name
    return { arrangement := .single (.scalar type), name, mappedKey }
  | none => do
    checkName name
    .error .unknownType

def nested (reference : Reference σ) (name mappedKey : String) : Except Fault (Field σ) := do
  checkName name
  return { arrangement := .single (.nested reference), name, mappedKey }

/-- What may be given for the elements of a collection. -/
inductive ItemSource (σ : Type) where
  /-- Nothing: the elements are texts. -/
  | unspecified
  | reference (target : Reference σ)
  | field (field : Field σ)
  | other

def ItemSource.item? : ItemSource σ → Option (Item σ)
  | unspecified => some { content := .scalar .string }
  | reference target => some { content := .nested target }
  | field { arrangement := .single content, name, mappedKey, .. } => some { content, name, mappedKey }
  | field _ | other => none

def collection (kind : Collection) (source : ItemSource σ) (name mappedKey : String) :
    Except Fault (Field σ) :=
  match source.item? with
  | none => .error .itemNotAllowed
  | some item => do
    checkName name
    return { arrangement := match kind with | .array => .array item | .map => .map item, name, mappedKey }

def content (field : Field σ) : Content σ :=
  match field.arrangement with
  | .single content => content
  | .array item | .map item => item.content

def valueType (field : Field σ) : ValueType :=
  field.content.valueType

def collection? (field : Field σ) : Option Collection :=
  match field.arrangement with
  | .single _ => none
  | .array _ => some .array
  | .map _ => some .map

def item? (field : Field σ) : Option (Field σ) :=
  match field.arrangement with
  | .single _ => none
  | .array item | .map item =>
    some { arrangement := .single item.content, name := item.name, mappedKey := item.mappedKey }

def kindName (field : Field σ) : String :=
  match field.arrangement with
  | .single (.scalar _) => "Attribute"
  | .single (.nested _) => "Nested"
  | .array _ => "ArrayOf"
  | .map _ => "MapOf"

end Field
end RecordAddress
