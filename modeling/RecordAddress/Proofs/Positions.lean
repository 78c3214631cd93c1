import RecordAddress.Pointer.Access
import RecordAddress.Proofs.Acceptance
import RecordAddress.Proofs.Reopening

/-! Positions in the records of a schema. What a pointer leads to follows from the fields that it goes through:
whether it is a collection, and which schema the objects there are of. -/

namespace RecordAddress

/-- What values are at a place of a record: collections, objects of a schema, or neither. -/
structure Position where
  collection : Option Collection := none
  schema : Option Schema := none

namespace Position

def object (schema : Schema) : Position where
  schema := schema

/-- Where the elements of a collection are. -/
def element (position : Position) : Position :=
  { position with collection := none }

end Position

def Content.schema? (registry : Registry) : Content Schema → Option Schema
  | .scalar _ => none
  | .nested reference => (registry.target reference).toOption

def Field.position (registry : Registry) (field : Field Schema) : Position where
  collection := field.collection?
  schema := field.content.schema? registry

namespace Schema

/-- The properties of a schema itself: the declared ones, and the type property if there are subtypes. -/
inductive Has (schema : Schema) : Field Schema → Prop
  | declared {field : Field Schema} : field ∈ schema.fields → Has schema field
  | typeProperty : schema.isPolymorphic = true → Has schema (Container.typeField schema.typeProperty)

/-- The properties that can be addressed on objects of a schema, those of its subtypes among them. -/
inductive Addresses (registry : Registry) (schema : Schema) : Field Schema → Prop
  | own {field : Field Schema} : schema.Has field → Addresses registry schema field
  | ofSubtype {subtype : String} {reference : Reference Schema} {specific : Schema} {field : Field Schema} :
      (subtype, reference) ∈ schema.subtypes → registry.target reference = .ok specific → specific.Has field →
      Addresses registry schema field

/-- The schemas of the objects in the records of a schema. -/
inductive Contains (registry : Registry) (root : Schema) : Schema → Prop
  | self : Contains registry root root
  | inside {holder target : Schema} {field : Field Schema} : Contains registry root holder →
      holder.Addresses registry field → field.content.schema? registry = some target → Contains registry root target

/-- Among the properties of objects, a name stands for one mapped key and for one position, and a mapped key
stands for one name. -/
structure Uniform (registry : Registry) (schema : Schema) : Prop where
  keys : ∀ first second, schema.Addresses registry first → schema.Addresses registry second →
    (first.name = second.name ↔ first.mappedKey = second.mappedKey)
  positions : ∀ first second, schema.Addresses registry first → schema.Addresses registry second →
    first.name = second.name → first.position registry = second.position registry

end Schema

/-- The access to a property under its declared names. -/
def Field.access (field : Field Schema) : Access :=
  .property (.text field.name) (.text field.mappedKey) field.collection?

/-- The steps that lead from one position to another, as far as names and mapped keys tell properties apart alike. -/
inductive Position.Step (registry : Registry) : Position → Access → Position → Prop
  | property {schema : Schema} {field : Field Schema} : schema.Uniform registry → schema.Addresses registry field →
      Step registry (.object schema) field.access (field.position registry)
  | element {position : Position} {index : ElementIndex} : position.collection = some index.kind →
      Step registry position index.access position.element

/-- The ways that lead from one position to another. -/
inductive Position.Way (registry : Registry) : Position → List Access → Position → Prop
  | stop {position : Position} : Way registry position [] position
  | go {position next last : Position} {access : Access} {rest : List Access} : position.Step registry access next →
      Way registry next rest last → Way registry position (access :: rest) last

variable {registry : Registry} {memory : Memory} {roots : Schema → Prop} {root schema : Schema} {container : Container}
  {property : Property}

theorem Position.Way.snoc {position next last : Position} {access : Access} {way : List Access}
    (leads : position.Way registry way next) (step : next.Step registry access last) :
    position.Way registry (way ++ [access]) last := by
  induction leads with
  | stop => exact .go step .stop
  | go first _ ih => exact .go first (ih step)

/-! What is found in the container of a schema. -/

namespace Container
variable {place : Place}

theorem Opens.has_of_property? (opens : container.Opens schema place) {name : String}
    (found : container.property? name = some property) : schema.Has property.field ∧ ∃ at_, property.place = some at_ := by
  constructor
  · rcases opens.field_of_property? found with ⟨declared, -⟩ | ⟨polymorphic, rfl, telling⟩
    · exact .declared declared
    · rw [telling]
      exact .typeProperty polymorphic
  · obtain ⟨field, -, rfl⟩ := Option.map_eq_some_iff.mp found
    exact ⟨_, opens.place_bind _ field⟩

theorem polymorphic_of_subtype? {name : String} (found : container.subtype? name = some property) :
    container.isPolymorphic = true := by
  rw [Container.isPolymorphic]
  cases variants : container.variants with
  | none =>
    rw [Container.subtype?, variants] at found
    cases found
  | some => rfl

theorem Opens.listed_of_subtype? (opens : container.Opens schema place) {name : String}
    (found : container.subtype? name = some property) :
    container.isPolymorphic = true ∧ ∃ reference, (name, reference) ∈ schema.subtypes ∧
      property.field = subtypeField name reference ∧ ∃ at_, property.place = some at_ := by
  obtain ⟨reference, stored, rfl⟩ := Option.map_eq_some_iff.mp found
  obtain ⟨polymorphic, within⟩ := opens.draws.listed_of_variant (Entries.mem_of_find? stored)
  exact ⟨polymorphic, reference, within, rfl, _, opens.place_bind _ _⟩

end Container

namespace Pointer
variable {pointer parent child : Pointer} {whole : Value} {dashAllowed : Bool} {token : String} {target : Property}
  {children : Option Container} {place : Place}

/-- The position that a pointer leads to. -/
def position (registry : Registry) : Pointer → Position
  | .root container => .object container.schema
  | .property _ _ target _ => target.field.position registry
  | .element parent _ _ => (parent.position registry).element

/-- A token stands for a property of the container itself or of the container of a subtype. -/
theorem found_of_lookUp
    (looked : (lookUp { registry, memory } container token).outcome = .ok (some target)) :
    container.property? token = some target ∨
      ∃ subtype name property specific, subtypeAndName? token = some (subtype, name) ∧
        container.subtype? subtype = some property ∧ ({ registry, memory } : Context).nested property = .ok (some specific) ∧
        specific.property? name = some target := by
  rcases plain_or_specific container token with plain | ⟨subtype, name, property, parts, found⟩
  · rw [lookUp_plain plain] at looked
    exact .inl (Except.ok.inj looked)
  · have polymorphic := Container.polymorphic_of_subtype? found
    have opened : ∃ specific, ({ registry, memory } : Context).nested property = .ok (some specific) := by
      simp only [lookUp, parts, Amendments.isPolymorphic_unchanged, polymorphic, Value.isTruthy, ite_true,
        Opening.outcome_bind, bind_eq_ok] at looked
      obtain ⟨specific?, looked, -⟩ := looked
      simp only [Pointer.specific?, Amendments.subtype?_unchanged container subtype polymorphic, found, mapError_ok,
        Opening.outcome_bind, Opening.outcome_ofExcept, bind_eq_ok, Except.ok.injEq, exists_eq_left',
        Opening.outcome_mapError, outcome_nestedOpening, mapError_eq_ok] at looked
      obtain ⟨nested, opened, looked⟩ := looked
      cases nested with
      | none => cases looked
      | some specific => exact ⟨specific, opened⟩
    obtain ⟨specific, opened⟩ := opened
    rw [lookUp_specific parts polymorphic found opened] at looked
    exact .inr ⟨subtype, name, property, specific, parts, found, opened, Except.ok.inj looked⟩

/-- Whatever a token names inside an object can be addressed on it, and what is nested there is opened. -/
theorem addresses_of_names (opens : container.Opens schema place)
    (names : Names { registry, memory := .forgetful } container token target children) :
    schema.Addresses registry target.field ∧ ∀ inner, children = some inner →
      ∃ specific below, target.field.content.schema? registry = some specific ∧ inner.Opens specific below := by
  cases names with
  | typeProperty told has same =>
    cases same
    have found := Amendments.property_unchanged.mp has
    exact ⟨.own (opens.has_of_property? found).1, nofun⟩
  | found told looked same nested =>
    cases same
    have addressed : schema.Addresses registry target.field ∧ ∃ at_, target.place = some at_ := by
      rcases found_of_lookUp looked with found | ⟨subtype, name, property, specific, -, listed, opened, found⟩
      · obtain ⟨has, standing⟩ := opens.has_of_property? found
        exact ⟨.own has, standing⟩
      · obtain ⟨-, reference, within, same, at_, standing⟩ := opens.listed_of_subtype? listed
        obtain ⟨_, _, content, target, made⟩ := Context.nested_anew opened
        rw [same] at content
        cases content
        rw [standing] at made
        obtain ⟨has, standing⟩ := (Container.opens_of_ofSchema made).has_of_property? found
        exact ⟨.ofSubtype within target has, standing⟩
    obtain ⟨addresses, at_, standing⟩ := addressed
    refine ⟨addresses, ?_⟩
    rintro inner rfl
    obtain ⟨reference, specific, content, found, made⟩ := Context.nested_anew nested
    rw [standing] at made
    refine ⟨specific, at_, ?_, Container.opens_of_ofSchema made⟩
    rw [content, Content.schema?, found]
    rfl

/-- A pointer whose way leads from the records of a schema to its position. -/
structure Placed (registry : Registry) (root : Schema) (pointer : Pointer) : Prop where
  way : Position.Way registry (.object root) (pointer.route {}) (pointer.position registry)
  contains : ∀ schema, (pointer.position registry).schema = some schema → root.Contains registry schema
  children : ∀ container, pointer.children? = some container →
    ∃ schema place, (pointer.position registry).schema = some schema ∧ container.Opens schema place

/-- Properties only come after objects, whose container is at hand. -/
theorem object_of_next (awaited : parent.next {} = .property container) :
    (parent.position registry).collection = none ∧ parent.children? = some container := by
  cases parent with
  | root other =>
    cases awaited
    exact ⟨rfl, rfl⟩
  | property above token target children =>
    simp only [Pointer.next, Amendments.collection?_unchanged] at awaited
    split at awaited
    · cases awaited
    · cases awaited
    next single => exact ⟨single, children_of_inside awaited⟩
  | element above token index =>
    simp only [Pointer.next] at awaited
    split at awaited
    · cases awaited
    · split at awaited
      · exact ⟨rfl, children_of_inside awaited⟩
      · cases awaited

theorem Placed.object (placed : parent.Placed registry root) (awaited : parent.next {} = .property container) :
    ∃ schema place, parent.position registry = .object schema ∧ container.Opens schema place := by
  obtain ⟨single, has⟩ := object_of_next awaited
  obtain ⟨schema, place, same, opens⟩ := placed.children container has
  refine ⟨schema, place, ?_, opens⟩
  rcases position : parent.position registry with ⟨collection, schema?⟩
  rw [position] at single same
  cases single
  cases same
  rfl

theorem collection_of_element {index : ElementIndex}
    (awaited : parent.next {} = match index.kind with | .array => .arrayIndex | .map => .mapKey) :
    (parent.position registry).collection = some index.kind := by
  obtain ⟨_, _, target, _, rfl, kind⟩ := collection_of_next awaited
  exact kind

theorem Placed.element {index : ElementIndex} (placed : parent.Placed registry root)
    (collection : (parent.position registry).collection = some index.kind) :
    (Pointer.element parent token index).Placed registry root := by
  refine ⟨?_, placed.contains, placed.children⟩
  have step : (parent.position registry).Step registry index.access (parent.position registry).element :=
    .element collection
  have way := placed.way.snoc step
  simp only [route, elementAccess, Amendments.isStray_unchanged]
  exact way

theorem Placed.extend (uniform : ∀ schema, root.Contains registry schema → schema.Uniform registry)
    (placed : parent.Placed registry root)
    (extended : (extend { registry, memory := .forgetful } whole dashAllowed parent token).outcome = .ok child) :
    child.Placed registry root := by
  rcases extend_eq_ok.mp extended with ⟨index, awaited, -, rfl⟩ | ⟨awaited, rfl⟩ |
    ⟨container, target, children, awaited, names, rfl⟩
  · apply placed.element
    cases index <;> exact collection_of_element awaited
  · exact placed.element (collection_of_element awaited)
  · obtain ⟨schema, place, position, opens⟩ := placed.object awaited
    obtain ⟨addresses, inside⟩ := addresses_of_names opens names
    have contains : root.Contains registry schema := by
      apply placed.contains
      rw [position]
      rfl
    have step := Position.Step.property (uniform schema contains) addresses
    rw [← position] at step
    exact ⟨placed.way.snoc step, fun target nested => contains.inside addresses nested, inside⟩

/-- The pointers into the records of a schema: those that texts are parsed to, and all that extend one of them.
Containers may have been opened in between. -/
inductive Into (registry : Registry) (roots : Schema → Prop) (root : Schema) : Pointer → Prop
  | parsed {memory : Memory} {container : Container} {dashAllowed : Bool} {given : Value} {pointer : Pointer} :
      memory.Genuine registry roots → ({ registry, memory } : Context).root root = .ok container →
      (parse { registry, memory } container dashAllowed given).outcome = .ok pointer → Into registry roots root pointer
  | child {memory : Memory} {dashAllowed : Bool} {token : String} {parent pointer : Pointer} :
      memory.Genuine registry roots → Into registry roots root parent →
      (Pointer.child { registry, memory } dashAllowed parent token).outcome = .ok pointer →
      Into registry roots root pointer

private theorem Placed.extendAll (uniform : ∀ schema, root.Contains registry schema → schema.Uniform registry)
    {tokens : List String} {last : Pointer} (placed : pointer.Placed registry root)
    (extended : (tokens.foldlM (Pointer.extend { registry, memory := .forgetful } whole dashAllowed) pointer).outcome =
      .ok last) : last.Placed registry root := by
  induction tokens generalizing pointer with
  | nil =>
    cases extended
    exact placed
  | cons token rest ih =>
    rw [List.foldlM_cons, Opening.outcome_bind, bind_eq_ok] at extended
    obtain ⟨child, first, further⟩ := extended
    exact ih (placed.extend uniform first) further

theorem placed_of_parse (uniform : ∀ schema, root.Contains registry schema → schema.Uniform registry)
    (opens : container.Opens root place)
    (parsed : (parse { registry, memory := .forgetful } container dashAllowed whole).outcome = .ok pointer) :
    pointer.Placed registry root := by
  obtain rfl := opens.taken
  have atRoot : (Pointer.root container).Placed registry container.schema := by
    refine ⟨.stop, ?_, ?_⟩
    · rintro schema same
      cases same
      exact .self
    · rintro other same
      cases same
      exact ⟨_, place, rfl, opens⟩
  unfold parse at parsed
  split at parsed
  · split at parsed
    · cases parsed
    · split at parsed
      · cases parsed
      · exact atRoot.extendAll uniform parsed
  · cases parsed

/-- Whatever was opened before, a pointer into the records of a schema leads to its position. -/
theorem Into.placed (distinct : Distinct roots) (isRoot : roots root)
    (uniform : ∀ schema, root.Contains registry schema → schema.Uniform registry)
    (into : Into registry roots root pointer) : pointer.Trusted registry roots ∧ pointer.Placed registry root := by
  induction into with
  | parsed genuine opened parsed =>
    rw [Context.root_forgotten distinct genuine isRoot] at opened
    have rootTrusted : Container.Trusted registry roots _ := Context.root_trusted isRoot opened
    have trusted := (parse_repeats distinct genuine rootTrusted).found _ parsed
    rw [(parse_repeats distinct genuine rootTrusted).same] at parsed
    exact ⟨trusted, placed_of_parse uniform (Container.opens_of_ofSchema (Context.root_anew opened)) parsed⟩
  | child genuine _ made ih =>
    obtain ⟨trusted, placed⟩ := ih
    have childTrusted := (extend_repeats distinct genuine trusted).found _ made
    rw [Pointer.child, (extend_repeats distinct genuine trusted).same] at made
    exact ⟨childTrusted, placed.extend uniform made⟩

end Pointer
end RecordAddress
