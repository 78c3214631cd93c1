import RecordAddress.ArrayIndex
import RecordAddress.Registry
import RecordAddress.Schema.Container
import RecordAddress.Token

/-! The language of pointers into the records of a schema, told by the declared fields alone: what a token
may be follows from what it comes after, and what comes after it from the field that it names. -/

namespace RecordAddress

namespace Token

def WellEscaped (text : String) : Prop :=
  ∀ before after, text.toList = before ++ '~' :: after → ∃ rest, after = '0' :: rest ∨ after = '1' :: rest

/-- The unescaped tokens of a text, each of which is written after a slash. -/
def unescaped (text : String) : List String :=
  match text.toList with
  | '/' :: rest => (splitAtSlashes rest).map fun piece => String.ofList (unescapeChars piece)
  | _ => []

end Token

/-- What a token can come after. -/
inductive Node where
  | object (schema : Schema)
  | array (element : Content Schema)
  | map (element : Content Schema)
  /-- No token can come after it. -/
  | leaf

inductive Content.Leads (registry : Registry) : Content Schema → Node → Prop
  | scalar {type : Scalar} : Leads registry (.scalar type) .leaf
  | nested {reference : Reference Schema} {schema : Schema} : registry.target reference = .ok schema →
      Leads registry (.nested reference) (.object schema)

inductive Arrangement.Leads (registry : Registry) : Arrangement Schema → Node → Prop
  | single {content : Content Schema} {node : Node} : content.Leads registry node → Leads registry (.single content) node
  | array {item : Item Schema} : Leads registry (.array item) (.array item.content)
  | map {item : Item Schema} : Leads registry (.map item) (.map item.content)

/-- The properties that objects of a schema have, each with what comes after it: the declared ones, and the
type property if there are subtypes. -/
inductive Schema.Offers (registry : Registry) (schema : Schema) : String → Node → Prop
  | declared {field : Field Schema} {node : Node} : field ∈ schema.fields → field.arrangement.Leads registry node →
      Offers registry schema field.name node
  | typeProperty : schema.isPolymorphic = true → Offers registry schema schema.typeProperty .leaf

/-- The tokens that can come after a node, each with what comes after it. -/
inductive Node.Takes (registry : Registry) (dashAllowed : Bool) : Node → String → Node → Prop
  | property {schema : Schema} {name : String} {node : Node} : schema.Offers registry name node →
      Takes registry dashAllowed (.object schema) name node
  | subtypeProperty {schema specific : Schema} {subtype name : String} {reference : Reference Schema} {node : Node} :
      (subtype, reference) ∈ schema.subtypes → registry.target reference = .ok specific →
      specific.Offers registry name node → name ≠ "" →
      Takes registry dashAllowed (.object schema) (subtype ++ ":" ++ name) node
  | position {element : Content Schema} {token : String} {node : Node} : ArrayIndex.isDecimal token.toList = true →
      element.Leads registry node → Takes registry dashAllowed (.array element) token node
  | afterLast {element : Content Schema} : dashAllowed = true → Takes registry dashAllowed (.array element) "-" .leaf
  | key {element : Content Schema} {token : String} {node : Node} : element.Leads registry node →
      Takes registry dashAllowed (.map element) token node

/-- The sequences of tokens that can come after a node. -/
inductive Node.Derives (registry : Registry) (dashAllowed : Bool) : Node → List String → Prop
  | stop {node : Node} : Derives registry dashAllowed node []
  | go {node next : Node} {token : String} {rest : List String} : node.Takes registry dashAllowed token next →
      Derives registry dashAllowed next rest → Derives registry dashAllowed node (token :: rest)

namespace Schema

/-- What class definitions see to: names tell properties and subtypes apart, and are no texts with a colon. -/
structure WellNamed (schema : Schema) : Prop where
  names : (schema.fields.map Field.name).Nodup
  name_allowed : ∀ field ∈ schema.fields, field.name = "" ∨ MemberName.allowed field.name = true
  typeProperty_free : schema.isPolymorphic = true → ∀ field ∈ schema.fields, field.name ≠ schema.typeProperty
  subtypes : (schema.subtypes.map Prod.fst).Nodup
  subtype_allowed : ∀ subtype ∈ schema.subtypes, MemberName.allowed subtype.1 = true

/-- What a schema says of other schemas, in its fields or its subtypes. -/
inductive Refers (schema : Schema) : Reference Schema → Prop
  | field {field : Field Schema} {reference : Reference Schema} : field ∈ schema.fields →
      field.content = .nested reference → Refers schema reference
  | subtype {subtype : String} {reference : Reference Schema} : (subtype, reference) ∈ schema.subtypes →
      Refers schema reference

/-- The schemas that a schema refers to, directly or not. -/
inductive Reaches (registry : Registry) (schema : Schema) : Schema → Prop
  | self : Reaches registry schema schema
  | step {middle target : Schema} {reference : Reference Schema} : Reaches registry schema middle →
      middle.Refers reference → registry.target reference = .ok target → Reaches registry schema target

/-- All that the schema refers to, directly or not, is registered and has containers to offer. -/
structure Complete (registry : Registry) (schema : Schema) : Prop where
  wellNamed : ∀ {reached}, Reaches registry schema reached → reached.WellNamed
  registered : ∀ {reached reference}, Reaches registry schema reached → reached.Refers reference →
    ∃ target, registry.target reference = .ok target
  opens : ∀ {reached}, Reaches registry schema reached → ∀ path place,
    ∃ container, Container.ofSchema reached path place = .ok container

/-- A schema is complete if it belongs to schemas that refer to each other only. -/
theorem Complete.of_closed {registry : Registry} {schema : Schema} (family : Schema → Prop) (isMember : family schema)
    (wellNamed : ∀ member, family member → member.WellNamed)
    (opens : ∀ member, family member → ∀ path place, ∃ container, Container.ofSchema member path place = .ok container)
    (closed : ∀ member, family member → ∀ reference, member.Refers reference →
      ∃ target, family target ∧ registry.target reference = .ok target) : schema.Complete registry := by
  have reached {other : Schema} (reaches : schema.Reaches registry other) : family other := by
    induction reaches with
    | self => exact isMember
    | step _ refers found ih =>
      obtain ⟨target, within, same⟩ := closed _ ih _ refers
      cases found.symm.trans same
      exact within
  refine ⟨fun reaches => wellNamed _ (reached reaches), ?_, fun reaches => opens _ (reached reaches)⟩
  intro other reference reaches refers
  obtain ⟨target, -, found⟩ := closed other (reached reaches) reference refers
  exact ⟨target, found⟩

end Schema
end RecordAddress
