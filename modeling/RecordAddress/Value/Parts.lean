import RecordAddress.Pointer.Attributes

/-! The parts of values: the items of sequences, the entries of mappings and the attributes of
objects. An operation breaks down on a value that does not offer it; whoever uses one looks at the
shape of the value first. -/

namespace RecordAddress.Value

def length : Value → Except Breakdown Nat
  | list items | tuple items => .ok items.length
  | _ => .error .noSequence

def item (holder : Value) (index : Nat) : Except Breakdown Value :=
  match holder with
  | list items | tuple items => items[index]?.elim (.error .noSuchItem) .ok
  | _ => .error .noSequence

/-- An entry, or what stands for an absent one. -/
def entry (holder : Value) (key : String) (absent : Value) : Except Breakdown Value :=
  match holder with
  | dict entries | view entries => .ok ((Entries.find? key entries).getD absent)
  | _ => .error .noMapping

/-- The attribute of a location that holds its text. It always follows the tokens. -/
def pathKey := "path"

def tokensKey := "parts"

/-- Whether a breakdown means that there is no attribute to read. -/
def Breakdown.isAbsence : Breakdown → Bool
  | noObject | notChangeable | container .notOffered => true
  | _ => false

/-- An attribute, null if there is none. -/
def attributeAt (context : Context) (holder : Value) (key : String) : Except Breakdown Value :=
  match holder with
  | object attributes => .ok ((Entries.find? key attributes).getD null)
  | location tokens attributes => .ok <|
    if key = pathKey then text tokens.toLocation.text
    else if key = tokensKey then tokens
    else (Entries.find? key attributes).getD (context.ofLocation key)
  | pointer target => .ok (context.ofPointer target key)
  | description described _ =>
    match context.ofDescription described key with
    | .ok value => .ok value
    | .error breakdown => if breakdown.isAbsence then .ok null else .error breakdown
  | missing => .ok null
  | _ => .error .noObject

/-- The value goes in front of the item at the index. -/
def insertItem (holder : Value) (index : Nat) (value : Value) : Except Breakdown Value :=
  match holder with
  | list items => .ok (list (items.take index ++ value :: items.drop index))
  | _ => .error .notChangeable

def appendItem (holder value : Value) : Except Breakdown Value :=
  match holder with
  | list items => .ok (list (items ++ [value]))
  | _ => .error .notChangeable

def setItem (holder : Value) (index : Nat) (value : Value) : Except Breakdown Value :=
  match holder with
  | list items => if index < items.length then .ok (list (items.set index value)) else .error .noSuchItem
  | _ => .error .notChangeable

def removeItem (holder : Value) (index : Nat) : Except Breakdown Value :=
  match holder with
  | list items => if index < items.length then .ok (list (items.eraseIdx index)) else .error .noSuchItem
  | _ => .error .notChangeable

def setEntry (holder : Value) (key : String) (value : Value) : Except Breakdown Value :=
  match holder with
  | dict entries => .ok (dict (Entries.put key value entries))
  | _ => .error .notChangeable

/-- An entry that is not there need not be removed. -/
def removeEntry (holder : Value) (key : String) : Except Breakdown Value :=
  match holder with
  | dict entries => .ok (dict (Entries.erase key entries))
  | _ => .error .notChangeable

/-- The attributes that cannot be set because they follow from others. -/
def fixedKeys : Description → List String
  | .property target =>
    let fixed := ["key", "scalar_value_type", "is_array", "is_map", "container", "nested_path", "nested_properties"]
    match target.field.arrangement with
    | .single (.nested _) => "schema" :: fixed
    | _ => fixed
  | .container target =>
    let fixed := ["record_type", "nested_path", "property_names"]
    if target.isPolymorphic then "type_property_name" :: "subtypes" :: fixed else fixed
  | .defaultStyle _ => ["func", "args", "keywords"]
  | .valueType _ | .collection _ => ["name", "value"]
  | .schema _ | .settings _ | .options _ | .settingsMaker | .style _ | .operation => []

/-- The attribute that a value set as an attribute is kept in. -/
def storedKey : Description → String → String
  | .property _, "name" => Amendments.nameKey
  | .property _, "mapped_key" => Amendments.mappedKeyKey
  | _, key => key

/-- The name of a property is an allowed one, or nothing. -/
def checkName (name : Value) : Except Breakdown Unit :=
  if !name.isTruthy then .ok ()
  else match name with
    | text name => (Field.checkName name).mapError .field
    | _ => .error .noName

/-- Whether an attribute of what describes a record type can be set to the value. -/
def checkAttribute (described : Description) (key : String) (value : Value) : Except Breakdown Unit :=
  match described with
  | .operation => .error .notChangeable
  | .property _ =>
    if key = "name" then checkName value
    else if (fixedKeys described).contains key then .error .notChangeable else .ok ()
  | .schema _ => if Amendments.classNameKeys.contains key && value.text?.isNone then .error .noName else .ok ()
  | _ => if (fixedKeys described).contains key then .error .notChangeable else .ok ()

def setAttribute (holder : Value) (key : String) (value : Value) : Except Breakdown Value :=
  match holder with
  | object attributes => .ok (object (Entries.put key value attributes))
  | location tokens attributes =>
    if key = pathKey then .error .notChangeable
    else if key = tokensKey then .ok (location value attributes)
    else .ok (location tokens (Entries.put key value attributes))
  | description described attributes => do
    checkAttribute described key value
    return description described (Entries.put (storedKey described key) value attributes)
  | _ => .error .notChangeable

/-- The holder after the value of an attribute has changed inside, which needs no setting of it. What a
location has of its kind alone is not kept in it, and what describes a record type is changed apart. -/
def keepAttribute (holder : Value) (key : String) (value : Value) : Value :=
  match holder with
  | object attributes => object (Entries.put key value attributes)
  | location tokens attributes =>
    if key = pathKey then holder
    else if key = tokensKey then location value attributes
    else if Entries.contains key attributes then location tokens (Entries.put key value attributes)
    else holder
  | _ => holder

/-- What describes a record type after the value of an attribute has changed inside. -/
def keepShown (holder : Value) (key : String) (value : Value) : Value :=
  match holder with
  | description described attributes => description described (Entries.put (storedKey described key) value attributes)
  | _ => holder

end RecordAddress.Value
