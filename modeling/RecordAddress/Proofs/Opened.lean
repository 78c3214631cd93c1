import Mathlib.Data.List.Nodup
import RecordAddress.Context
import RecordAddress.Proofs.Grammar
import RecordAddress.Proofs.Outcomes

/-! Containers as they are opened from schemas. Where a container stands tells the schema that it was opened
from, so one that is remembered is as good as one that is opened anew. -/

namespace RecordAddress
variable {registry : Registry} {memory : Memory} {schema root : Schema} {container : Container}

namespace Place

theorem below_inj {first second : Place} {segment otherSegment : Segment}
    (same : first.below segment = second.below otherSegment) : first = second ∧ segment = otherSegment := by
  cases first
  cases second
  simp only [below, mk.injEq, List.cons.injEq, Nat.add_right_cancel_iff] at same
  obtain ⟨rfl, rfl, rfl, rfl⟩ := same
  exact ⟨rfl, rfl⟩

theorem below_ne_ground (place : Place) (segment : Segment) (ground : Ground) : place.below segment ≠ { ground } := by
  simp [below]

end Place

namespace Container

/-- What a container has is what its schema declares, and the type property if there are subtypes. -/
structure Opens (container : Container) (schema : Schema) (place : Place) : Prop where
  taken : container.schema = schema
  noMixin : schema.isMixin = false
  place : container.place = some place
  variants : container.variants = if schema.isPolymorphic then some schema.subtypes else none
  entries : container.entries = if schema.isPolymorphic then
      Entries.put (some schema.typeProperty) (typeField schema.typeProperty) (declaredEntries schema)
    else declaredEntries schema
  typeProperty : schema.isPolymorphic = true → Field.checkName schema.typeProperty = .ok ()

/-- The same of a container that need not stand anywhere. -/
structure Draws (container : Container) (schema : Schema) : Prop where
  taken : container.schema = schema
  noMixin : schema.isMixin = false
  variants : container.variants = if schema.isPolymorphic then some schema.subtypes else none
  entries : container.entries = if schema.isPolymorphic then
      Entries.put (some schema.typeProperty) (typeField schema.typeProperty) (declaredEntries schema)
    else declaredEntries schema
  typeProperty : schema.isPolymorphic = true → Field.checkName schema.typeProperty = .ok ()

variable {place : Place}

theorem Opens.draws (opens : container.Opens schema place) : container.Draws schema :=
  ⟨opens.taken, opens.noMixin, opens.variants, opens.entries, opens.typeProperty⟩

/-- What a container has that is opened from a schema. -/
theorem ofSchema_eq_ok {path : String} {place : Option Place} (opened : ofSchema schema path place = .ok container) :
    schema.isMixin = false ∧ (schema.isPolymorphic = true → Field.checkName schema.typeProperty = .ok ()) ∧
      container =
        { schema, path, place
          variants := if schema.isPolymorphic then some schema.subtypes else none
          entries := if schema.isPolymorphic then
              Entries.put (some schema.typeProperty) (typeField schema.typeProperty) (declaredEntries schema)
            else declaredEntries schema } := by
  unfold ofSchema at opened
  cases hidden : schema.hidden.contains Operation.container with
  | true =>
    rw [hidden] at opened
    cases opened
  | false =>
    cases mixin : schema.isMixin with
    | true =>
      rw [hidden, mixin] at opened
      cases opened
    | false =>
      cases polymorphic : schema.isPolymorphic with
      | true =>
        simp only [hidden, mixin, polymorphic, Bool.false_eq_true, ite_false, ite_true, bind_eq_ok,
          mapError_eq_ok] at opened
        obtain ⟨_, allowed, same⟩ := opened
        cases same
        exact ⟨rfl, fun _ => allowed, by simp⟩
      | false =>
        rw [hidden, mixin, polymorphic] at opened
        cases opened
        exact ⟨rfl, by simp, by simp⟩

theorem draws_of_ofSchema {path : String} {place : Option Place} (opened : ofSchema schema path place = .ok container) :
    container.Draws schema := by
  obtain ⟨noMixin, typeProperty, rfl⟩ := ofSchema_eq_ok opened
  exact ⟨rfl, noMixin, rfl, rfl, typeProperty⟩

theorem opens_of_ofSchema {path : String} (opened : ofSchema schema path (some place) = .ok container) :
    container.Opens schema place := by
  obtain ⟨noMixin, typeProperty, rfl⟩ := ofSchema_eq_ok opened
  exact ⟨rfl, noMixin, rfl, rfl, rfl, typeProperty⟩

theorem find?_declared (wellNamed : schema.WellNamed) {name : String} {field : Field Schema} :
    Entries.find? (some name) (declaredEntries schema) = some field ↔ field ∈ schema.fields ∧ field.name = name := by
  have distinct : (declaredEntries schema).keys.Nodup := by
    have same : (declaredEntries schema).keys = (schema.fields.map Field.name).map some := by
      simp [declaredEntries, Entries.keys]
    rw [same]
    exact List.Nodup.map (fun _ _ => Option.some.inj) wellNamed.names
  constructor
  · intro found
    have within := Entries.mem_of_find? found
    simp only [declaredEntries, List.mem_map, Prod.mk.injEq, Option.some.injEq] at within
    obtain ⟨_, declared, named, rfl⟩ := within
    exact ⟨declared, named⟩
  · rintro ⟨declared, rfl⟩
    exact Entries.find?_of_nodup distinct (List.mem_map.mpr ⟨field, declared, rfl⟩)

theorem Draws.isPolymorphic (draws : container.Draws schema) : container.isPolymorphic = schema.isPolymorphic := by
  rw [Container.isPolymorphic, draws.variants]
  cases schema.isPolymorphic <;> rfl

theorem Opens.isPolymorphic (opens : container.Opens schema place) : container.isPolymorphic = schema.isPolymorphic :=
  opens.draws.isPolymorphic

theorem Opens.place_bind (opens : container.Opens schema place) (segment : Segment) (field : Field Schema) :
    (container.bind segment field).place = some (place.below segment) := by
  simp [Container.bind, opens.place]

/-- What a container has was declared by its schema, or is the type property. -/
theorem Draws.field_of_entry (draws : container.Draws schema) {entry : Option String × Field Schema}
    (within : entry ∈ container.entries) :
    (entry.2 ∈ schema.fields ∧ entry.1 = some entry.2.name) ∨
      (schema.isPolymorphic = true ∧ entry = (some schema.typeProperty, typeField schema.typeProperty)) := by
  have declared (listed : entry ∈ declaredEntries schema) : entry.2 ∈ schema.fields ∧ entry.1 = some entry.2.name := by
    obtain ⟨field, given, rfl⟩ := List.mem_map.mp listed
    exact ⟨given, rfl⟩
  rw [draws.entries] at within
  split at within
  next polymorphic =>
    rcases Entries.eq_or_mem_of_put within with same | before
    · exact .inr ⟨polymorphic, same⟩
    · exact .inl (declared before)
  next => exact .inl (declared within)

theorem Draws.field_of_property? (draws : container.Draws schema) {name : String} {target : Property}
    (found : container.property? name = some target) :
    (target.field ∈ schema.fields ∧ target.field.name = name) ∨
      (schema.isPolymorphic = true ∧ schema.typeProperty = name ∧ target.field = typeField name) := by
  obtain ⟨field, stored, rfl⟩ := Option.map_eq_some_iff.mp found
  rcases draws.field_of_entry (Entries.mem_of_find? stored) with ⟨declared, named⟩ | ⟨polymorphic, same⟩
  · exact .inl ⟨declared, (Option.some.inj named).symm⟩
  · cases same
    exact .inr ⟨polymorphic, rfl, rfl⟩

theorem Opens.field_of_property? (opens : container.Opens schema place) {name : String} {target : Property}
    (found : container.property? name = some target) :
    (target.field ∈ schema.fields ∧ target.field.name = name) ∨
      (schema.isPolymorphic = true ∧ schema.typeProperty = name ∧ target.field = typeField name) :=
  opens.draws.field_of_property? found

theorem Draws.listed_of_variant (draws : container.Draws schema) {subtype : String × Reference Schema}
    (within : subtype ∈ container.variants.getD []) : container.isPolymorphic = true ∧ subtype ∈ schema.subtypes := by
  rw [draws.isPolymorphic]
  rw [draws.variants] at within
  cases polymorphic : schema.isPolymorphic with
  | false =>
    rw [polymorphic] at within
    cases within
  | true =>
    rw [polymorphic] at within
    exact ⟨rfl, within⟩

theorem Opens.property?_eq (opens : container.Opens schema place) (wellNamed : schema.WellNamed) {name : String}
    {target : Property} :
    container.property? name = some target ↔
      (∃ field ∈ schema.fields, field.name = name ∧ target = container.bind (.property name) field) ∨
      (schema.isPolymorphic = true ∧ schema.typeProperty = name ∧
        target = container.bind (.property name) (typeField name)) := by
  have declared : (∃ field, Entries.find? (some name) (declaredEntries schema) = some field ∧
      container.bind (.property name) field = target) ↔
      ∃ field ∈ schema.fields, field.name = name ∧ target = container.bind (.property name) field := by
    simp only [find?_declared wellNamed, and_assoc, eq_comm]
  rw [Container.property?, Option.map_eq_some_iff, opens.entries]
  cases polymorphic : schema.isPolymorphic with
  | false => simpa using declared
  | true =>
    simp only [ite_true, Entries.find?_put, Option.some.injEq, true_and]
    by_cases telling : schema.typeProperty = name
    · subst telling
      have taken : ¬ ∃ field ∈ schema.fields, field.name = schema.typeProperty ∧
          target = container.bind (.property schema.typeProperty) field := by
        rintro ⟨field, declared, named, -⟩
        exact wellNamed.typeProperty_free polymorphic field declared named
      simp [taken, eq_comm]
    · simpa [telling] using declared

theorem Opens.subtype?_eq (opens : container.Opens schema place) (wellNamed : schema.WellNamed) {name : String}
    {target : Property} :
    container.subtype? name = some target ↔
      ∃ reference, (name, reference) ∈ schema.subtypes ∧
        target = container.bind (.subtype name) (subtypeField name reference) := by
  have listed : container.variants.getD [] = schema.subtypes := by
    rw [opens.variants]
    cases polymorphic : schema.isPolymorphic with
    | true => rfl
    | false => simpa [Schema.isPolymorphic] using polymorphic
  have found {reference : Reference Schema} :
      Entries.find? name schema.subtypes = some reference ↔ (name, reference) ∈ schema.subtypes :=
    ⟨Entries.mem_of_find?, Entries.find?_of_nodup wellNamed.subtypes⟩
  rw [Container.subtype?, listed, Option.map_eq_some_iff]
  simp only [found, eq_comm]

end Container

/-- The places of the containers below a root one, and the schemas that are found there. -/
inductive Stands (registry : Registry) (root : Schema) : Place → Schema → Prop
  | root : Stands registry root { ground := .schema root.id } root
  | property {place : Place} {schema target : Schema} {field : Field Schema} {reference : Reference Schema} :
      Stands registry root place schema → field ∈ schema.fields → field.content = .nested reference →
      registry.target reference = .ok target → Stands registry root (place.below (.property field.name)) target
  | subtype {place : Place} {schema target : Schema} {subtype : String} {reference : Reference Schema} :
      Stands registry root place schema → (subtype, reference) ∈ schema.subtypes →
      registry.target reference = .ok target → Stands registry root (place.below (.subtype subtype)) target

theorem Stands.reaches {place : Place} (stands : Stands registry root place schema) : root.Reaches registry schema := by
  induction stands with
  | root => exact .self
  | property _ declared content target ih => exact ih.step (.field declared content) target
  | subtype _ listed target ih => exact ih.step (.subtype listed) target

/-- What is remembered of the containers below a root one is what would be opened now. -/
def Memory.Faithful (registry : Registry) (root : Schema) (memory : Memory) : Prop :=
  ∀ place schema container, Stands registry root place schema → memory.known? place = some container →
    container.Opens schema place

theorem Memory.faithful_of_empty : Memory.Faithful registry root {} := by
  intro place schema container _ known
  cases known

theorem opener_opens (complete : root.Complete registry) (faithful : memory.Faithful registry root) {place : Place}
    (stands : Stands registry root place schema) {reference : Reference Schema}
    (target : registry.target reference = .ok schema) (path : String) :
    ∃ container, ({ registry, memory } : Context).opener (some place) path reference = .ok container ∧
      container.Opens schema place := by
  unfold Context.opener
  cases known : memory.known? place with
  | some container =>
    refine ⟨container, ?_, faithful place schema container stands known⟩
    simp [known]
  | none =>
    obtain ⟨container, opened⟩ := complete.opens stands.reaches path (some place)
    refine ⟨container, ?_, Container.opens_of_ofSchema opened⟩
    simp [known, target, opened, bind, Except.bind]

theorem root_opens (complete : root.Complete registry) (faithful : memory.Faithful registry root)
    (opened : ({ registry, memory } : Context).root root = .ok container) :
    container.Opens root { ground := .schema root.id } := by
  have itself : registry.target (.schema root) = .ok root := rfl
  obtain ⟨standing, found, opens⟩ := opener_opens complete faithful .root itself ""
  simp only [Context.root, Amendments.isEmpty_unchanged, ite_true, Container.root] at opened
  cases hidden : root.hidden.contains Operation.rootContainer with
  | true =>
    rw [hidden] at opened
    cases opened
  | false =>
    rw [hidden, opens.noMixin] at opened
    cases found.symm.trans opened
    exact opens

theorem nested_opens (complete : root.Complete registry) (faithful : memory.Faithful registry root) {place : Place}
    {property : Property} {reference : Reference Schema} (stands : Stands registry root place schema)
    (standing : property.place = some place) (content : property.field.content = .nested reference)
    (target : registry.target reference = .ok schema) :
    ∃ container, ({ registry, memory } : Context).nested property = .ok (some container) ∧
      container.Opens schema place := by
  obtain ⟨container, opened, opens⟩ := opener_opens complete faithful stands target property.nestedPath
  refine ⟨container, ?_, opens⟩
  simp [Context.nested, Property.nested, content, standing, opened, Except.map]

theorem nested_of_scalar {property : Property} {type : Scalar} (content : property.field.content = .scalar type) :
    ({ registry, memory } : Context).nested property = .ok none := by
  simp [Context.nested, Property.nested, content]

end RecordAddress
